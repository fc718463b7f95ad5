import ChatRoom.Bank.Xml
import ChatRoom.Support.Splitting
import Mathlib.Data.List.Forall2

/-!
# Lists in a string

`CCmdStr` of `_public.cpp` takes apart a string whose parts are joined by a separator, and
`ConnectToServer` finds in such a string the addresses and ports of the servers that a client may
connect to.
-/

namespace ChatRoom.Bank

open CString Splitting

/-! ## `CCmdStr` -/

/-- A part as `SplitToCmd` stores it: with blanks deleted at its ends, by way of an array of 2048
characters that takes 2000 of them. -/
def storedPart (bdeletespace : Bool) (substr : Bytes) : Bytes :=
  if bdeletespace then
    let str := CharArray.ofBytes 2048 ((cstr substr).bytes.take 2000)
    (cstr (DeleteLRChar str 32).bytes).bytes
  else substr

/-- `SplitToCmd`, with the vector `m_vCmdStr` that it fills.  On an empty separator its loop would
not end. -/
def SplitToCmd (in_string in_sep : Bytes) (hsep : in_sep ≠ []) (bdeletespace : Bool) : List Bytes :=
  (pieces in_sep hsep in_string).map (storedPart bdeletespace)

theorem storedPart_eq {substr : Bytes} (hnul : 0 ∉ substr) :
    storedPart true substr = trim (substr.take 2000) := by
  have hread : (cstr substr).bytes = substr := (bytes_cstr_eq_self_iff substr).mpr hnul
  have hcut : 0 ∉ substr.take 2000 := fun h => hnul (List.mem_of_mem_take h)
  have hlen : (substr.take 2000).length < 2048 := by
    rw [List.length_take]
    omega
  have htrim : 0 ∉ trim (substr.take 2000) := fun h =>
    hcut ((List.dropWhile_suffix _).subset ((List.rdropWhile_prefix _ _).subset h))
  simp only [storedPart, if_true, hread]
  rw [DeleteLRChar_ofBytes hcut hlen,
    cstr_ofBytes htrim ((length_trim_le _).trans (by omega))]

theorem length_storedPart_le {substr : Bytes} (hnul : 0 ∉ substr) :
    (storedPart true substr).length ≤ substr.length := by
  rw [storedPart_eq hnul]
  exact (length_trim_le _).trans (List.length_take_le' _ _)

/-- What is stored in full length has lost nothing. -/
theorem storedPart_eq_self {substr : Bytes} (hnul : 0 ∉ substr)
    (hlen : (storedPart true substr).length = substr.length) : storedPart true substr = substr := by
  rw [storedPart_eq hnul] at hlen ⊢
  have hle := length_trim_le (substr.take 2000)
  have hcut := List.length_take_le' 2000 substr
  rw [List.length_take] at hle hcut
  have hwhole : substr.take 2000 = substr := List.take_of_length_le (by omega)
  rw [hwhole] at hlen ⊢
  have hright := List.rdropWhile_prefix (· == 32) (substr.dropWhile (· == 32))
  have hleft := List.dropWhile_suffix (p := (· == 32)) (l := substr)
  have hrightLen := hright.length_le
  have hleftLen := hleft.length_le
  rw [trim] at hlen ⊢
  rw [hright.eq_of_length (by omega), hleft.eq_of_length (by omega)]

theorem storedPart_eq_self_iff {substr : Bytes} (hnul : 0 ∉ substr) :
    storedPart true substr = substr ↔ substr.length ≤ 2000 ∧ Trimmed substr := by
  rw [storedPart_eq hnul]
  exact trim_take_eq_self_iff

/-- Joined parts come apart again exactly if no separator is found before its time, and no part
has blanks at its ends or more than 2000 characters. -/
theorem SplitToCmd_intercalate_iff {sep : Bytes} (hsep : sep ≠ []) (hsepNul : 0 ∉ sep)
    {parts : List Bytes} (hparts : parts ≠ []) (hnul : ∀ p ∈ parts, 0 ∉ p) :
    SplitToCmd (sep.intercalate parts) sep hsep true = parts ↔
      Separated sep parts ∧ ∀ p ∈ parts, p.length ≤ 2000 ∧ Trimmed p := by
  rw [SplitToCmd, ← pieces_intercalate_iff hsep hparts]
  have hjoined := intercalate_pieces hsep (sep.intercalate parts)
  have hpiecesNul : ∀ p ∈ pieces sep hsep (sep.intercalate parts), 0 ∉ p := by
    intro p hp hzero
    have hmem := (infix_intercalate sep hp).subset hzero
    rw [hjoined] at hmem
    rcases mem_intercalate hmem with hin | ⟨q, hq, hin⟩
    · exact hsepNul hin
    · exact hnul q hq hin
  constructor
  · intro h
    -- nothing can have been lost: the parts that were stored join to a text of the same length
    have hshorter : List.Forall₂ (fun p q => q.length ≤ p.length)
        (pieces sep hsep (sep.intercalate parts)) parts := by
      have hmap : List.Forall₂ (fun p q => q.length ≤ p.length)
          (pieces sep hsep (sep.intercalate parts))
          ((pieces sep hsep (sep.intercalate parts)).map (storedPart true)) := by
        rw [List.forall₂_map_right_iff, List.forall₂_same]
        exact fun p hp => length_storedPart_le (hpiecesNul p hp)
      rwa [h] at hmap
    have hsame : List.Forall₂ (fun p q => q.length = p.length)
        (pieces sep hsep (sep.intercalate parts))
        ((pieces sep hsep (sep.intercalate parts)).map (storedPart true)) := by
      rw [h]
      exact length_eq_of_length_intercalate hshorter (congrArg List.length hjoined).le
    rw [List.forall₂_map_right_iff, List.forall₂_same] at hsame
    have hself : ∀ p ∈ pieces sep hsep (sep.intercalate parts), storedPart true p = p :=
      fun p hp => storedPart_eq_self (hpiecesNul p hp) (hsame p hp)
    have hpieces := List.map_congr_left hself
    rw [h, List.map_id'] at hpieces
    refine ⟨hpieces.symm, fun p hp => ?_⟩
    rw [hpieces] at hp
    exact (storedPart_eq_self_iff (hpiecesNul p hp)).mp (hself p hp)
  · rintro ⟨hpieces, hkept⟩
    rw [hpieces]
    have hself : ∀ p ∈ parts, storedPart true p = p := fun p hp =>
      (storedPart_eq_self_iff (hnul p hp)).mpr (hkept p hp)
    rw [List.map_congr_left hself, List.map_id']

theorem SplitToCmd_intercalate_names :
    SplitToCmd ((utf8 "--").intercalate [utf8 "a-b", utf8 "c d"]) (utf8 "--") (by decide) true =
        [utf8 "a-b", utf8 "c d"] ↔
      Separated (utf8 "--") [utf8 "a-b", utf8 "c d"] ∧
        ∀ p ∈ [utf8 "a-b", utf8 "c d"], p.length ≤ 2000 ∧ Trimmed p :=
  SplitToCmd_intercalate_iff (by decide) (by decide) (by decide)
    (List.forall_mem_cons.mpr ⟨by decide, List.forall_mem_singleton.mpr (by decide)⟩)

/-- Parts without blanks and NUL, joined by a character that none of them contains. -/
theorem SplitToCmd_char {c : UInt8} (hc : c ≠ 0) {parts : List Bytes} (hparts : parts ≠ [])
    (hplain : ∀ p ∈ parts, 0 ∉ p ∧ 32 ∉ p ∧ c ∉ p) (hlen : ∀ p ∈ parts, p.length ≤ 2000)
    (hsep : [c] ≠ []) :
    SplitToCmd ([c].intercalate parts) [c] hsep true = parts := by
  have hnul : 0 ∉ [c] := fun h => hc (List.mem_singleton.mp h).symm
  rw [SplitToCmd_intercalate_iff hsep hnul hparts fun p hp => (hplain p hp).1,
    separated_singleton_iff]
  exact ⟨fun p hp => (hplain p hp).2.2,
    fun p hp => ⟨hlen p hp, trimmed_of_not_mem (hplain p hp).2.1⟩⟩

/-! ## `ConnectToServer` -/

/-- What the resolver and the kernel answer; `socket` is asked anew for each server. -/
structure Network (α : Type) where
  socket : ℕ → Bool
  gethostbyname : CStr → Option α
  connect : α → ℕ → Bool

/-- `htons`: the port as a number of 16 bits. -/
def htons (m_Port : ℤ) : ℕ := (m_Port % 65536).toNat

section
variable {α : Type} (net : Network α)

/-- One turn of the loop of `ConnectToServer`, before the turn `next`.  `none` is an address that
runs over the end of `m_IP`. -/
def tryServer (k : ℕ) (ip : CStr) (m_Port : ℤ) (next : Option (Option (α × ℕ))) :
    Option (Option (α × ℕ)) :=
  if 21 ≤ ip.strlen then none
  else if net.socket k then
    match net.gethostbyname ip with
    -- an address that is not resolved ends the search
    | none => some none
    | some h => if net.connect h (htons m_Port) then some (some (h, htons m_Port)) else next
  else some none

/-- The loop of `ConnectToServer`; a port that is missing is 0. -/
def tryServers : ℕ → List Bytes → Option (Option (α × ℕ))
  | _, [] => some none
  | k, [ip] => tryServer net k (cstr ip) 0 (some none)
  | k, ip :: port :: m_vCmdStr =>
      tryServer net k (cstr ip) (intOf (atoi ((cstr port).bytes ++ [0])))
        (tryServers (k + 1) m_vCmdStr)

/-- `ConnectToServer`, with the address and the port of the connection; `none` as before, or that
`in_ConnStr` runs over the end of `m_ConnStr`. -/
def ConnectToServer (in_ConnStr : CStr) : Option (Option (α × ℕ)) :=
  if 200 ≤ in_ConnStr.strlen then none
  else tryServers net 0 (SplitToCmd in_ConnStr.bytes [44] (by decide) true)

end

/-- A server as a user writes it down. -/
structure ServerAddr where
  ip : CStr
  port : ℕ
  ip_ok : ip.strlen ≤ 20 ∧ 32 ∉ ip.bytes ∧ 44 ∉ ip.bytes
  port_ok : port < 65536

def ServerAddr.parts (s : ServerAddr) : List Bytes := [s.ip.bytes, decimal s.port]

/-- `ip1,port1,ip2,port2,...` -/
def connString (servers : List ServerAddr) : Bytes :=
  ([44] : Bytes).intercalate (servers.flatMap ServerAddr.parts)

theorem parts_plain (s : ServerAddr) :
    ∀ p ∈ s.parts, (0 ∉ p ∧ 32 ∉ p ∧ 44 ∉ p) ∧ p.length ≤ 2000 := by
  have hdigits : ∀ b, isdigit b = false → b ∉ decimal s.port := fun b hb hmem => by
    rw [isdigit_of_mem_decimal hmem] at hb
    exact absurd hb (by decide)
  have hlen : (decimal s.port).length ≤ 5 :=
    (length_decimal_le_iff (by decide)).mpr (s.port_ok.trans (by decide))
  have hip := s.ip_ok.1
  rw [CStr.strlen] at hip
  rw [ServerAddr.parts, List.forall_mem_cons, List.forall_mem_singleton]
  refine ⟨⟨⟨s.ip.nulFree, s.ip_ok.2.1, s.ip_ok.2.2⟩, by omega⟩, ?_, by omega⟩
  exact ⟨hdigits 0 (by decide), hdigits 32 (by decide), hdigits 44 (by decide)⟩

theorem SplitToCmd_connString {servers : List ServerAddr} (hservers : servers ≠ [])
    (hcomma : ([44] : Bytes) ≠ []) :
    SplitToCmd (connString servers) [44] hcomma true = servers.flatMap ServerAddr.parts := by
  have hall : ∀ p ∈ servers.flatMap ServerAddr.parts,
      (0 ∉ p ∧ 32 ∉ p ∧ 44 ∉ p) ∧ p.length ≤ 2000 := by
    intro p hp
    obtain ⟨s, -, hps⟩ := List.mem_flatMap.mp hp
    exact parts_plain s p hps
  refine SplitToCmd_char (by decide) ?_ (fun p hp => (hall p hp).1)
    (fun p hp => (hall p hp).2) hcomma
  obtain ⟨s, rest, rfl⟩ := List.exists_cons_of_ne_nil hservers
  simp [ServerAddr.parts]

section
variable {α : Type} (net : Network α)

/-- The `k`-th server is found, but does not take the connection. -/
def Refuses (k : ℕ) (s : ServerAddr) : Prop :=
  net.socket k = true ∧ ∃ h, net.gethostbyname s.ip = some h ∧ net.connect h s.port = false

def Takes (k : ℕ) (s : ServerAddr) (h : α) : Prop :=
  net.socket k = true ∧ net.gethostbyname s.ip = some h ∧ net.connect h s.port = true

theorem tryServers_cons (k : ℕ) (s : ServerAddr) (rest : List Bytes) :
    tryServers net k (s.parts ++ rest) =
      tryServer net k s.ip s.port (tryServers net (k + 1) rest) := by
  have hip : cstr s.ip.bytes = s.ip := CStr.ext_bytes (takeWhile_ne_zero_of_nulFree s.ip.nulFree)
  have hzero : 0 ∉ decimal s.port := fun h => absurd (isdigit_of_mem_decimal h) (by decide)
  have hport : (cstr (decimal s.port)).bytes = decimal s.port :=
    (bytes_cstr_eq_self_iff _).mpr hzero
  have hport_lt := s.port_ok
  have hread : intOf (atoi (decimal s.port ++ [0])) = s.port := by
    rw [atoi_decimal s.port (by simp [isdigit]), intOf_eq (by omega) (by omega)]
  simp only [ServerAddr.parts, List.cons_append, List.nil_append, tryServers, hip, hport, hread]

/-- What becomes of the turn of a server. -/
theorem tryServer_cases (k : ℕ) (s : ServerAddr) (next : Option (Option (α × ℕ))) :
    (Refuses net k s ∧ tryServer net k s.ip s.port next = next) ∨
      (∃ h, Takes net k s h ∧ tryServer net k s.ip s.port next = some (some (h, s.port))) ∨
      (¬ Refuses net k s ∧ (∀ h, ¬ Takes net k s h) ∧
        tryServer net k s.ip s.port next = some none) := by
  have hfits : ¬ 21 ≤ s.ip.strlen := by
    have hip := s.ip_ok.1
    omega
  have hport : htons s.port = s.port := by
    have hport_lt := s.port_ok
    rw [htons]
    omega
  simp only [tryServer, if_neg hfits, hport]
  cases hsocket : net.socket k with
  | false => exact .inr (.inr ⟨by simp [Refuses, hsocket], by simp [Takes, hsocket], by simp⟩)
  | true =>
      cases hhost : net.gethostbyname s.ip with
      | none => exact .inr (.inr ⟨by simp [Refuses, hhost], by simp [Takes, hhost], by simp⟩)
      | some h =>
          cases hconnect : net.connect h s.port with
          | false => exact .inl ⟨⟨hsocket, h, hhost, hconnect⟩, by simp [hconnect]⟩
          | true => exact .inr (.inl ⟨h, ⟨hsocket, hhost, hconnect⟩, by simp [hconnect]⟩)

/-- The first server that takes a connection, when all servers before it were found and have
refused. -/
def Reaches (k : ℕ) (servers : List ServerAddr) (h : α) (port : ℕ) : Prop :=
  ∃ before s after, servers = before ++ s :: after ∧
    (∀ i b, before[i]? = some b → Refuses net (k + i) b) ∧
      Takes net (k + before.length) s h ∧ s.port = port

theorem not_takes_of_refuses {k : ℕ} {s : ServerAddr} (hrefuses : Refuses net k s) (h : α) :
    ¬ Takes net k s h := by
  obtain ⟨-, h', hhost, hconnect⟩ := hrefuses
  rintro ⟨-, hhost', hconnect'⟩
  obtain rfl := Option.some.inj (hhost.symm.trans hhost')
  exact absurd (hconnect.symm.trans hconnect') (by decide)

theorem reaches_cons_iff {k : ℕ} {first : ServerAddr} {servers : List ServerAddr} {h : α}
    {port : ℕ} :
    Reaches net k (first :: servers) h port ↔
      (Takes net k first h ∧ first.port = port) ∨
        (Refuses net k first ∧ Reaches net (k + 1) servers h port) := by
  constructor
  · rintro ⟨before, s, after, hservers, hbefore, htakes, hport⟩
    cases before with
    | nil =>
        obtain ⟨rfl, rfl⟩ := List.cons.inj hservers
        exact .inl ⟨htakes, hport⟩
    | cons b before =>
        obtain ⟨rfl, rfl⟩ := List.cons.inj hservers
        refine .inr ⟨hbefore 0 first rfl, before, s, after, rfl, fun i b hb => ?_, ?_, hport⟩
        · have hrefuses := hbefore (i + 1) b hb
          rwa [← Nat.add_assoc, Nat.add_right_comm] at hrefuses
        · rwa [List.length_cons, ← Nat.add_assoc, Nat.add_right_comm] at htakes
  · rintro (⟨htakes, hport⟩ | ⟨hrefuses, before, s, after, rfl, hbefore, htakes, hport⟩)
    · exact ⟨[], first, servers, rfl, by simp, htakes, hport⟩
    · refine ⟨first :: before, s, after, rfl, fun i b hb => ?_, ?_, hport⟩
      · cases i with
        | zero =>
            obtain rfl := Option.some.inj hb
            exact hrefuses
        | succ i =>
            have hnext := hbefore i b hb
            rwa [Nat.add_right_comm, Nat.add_assoc] at hnext
      · rwa [Nat.add_right_comm, Nat.add_assoc] at htakes

theorem tryServers_iff (k : ℕ) (servers : List ServerAddr) (h : α) (port : ℕ) :
    tryServers net k (servers.flatMap ServerAddr.parts) = some (some (h, port)) ↔
      Reaches net k servers h port := by
  induction servers generalizing k with
  | nil => simp [tryServers, Reaches]
  | cons first servers ih =>
      rw [List.flatMap_cons, tryServers_cons, reaches_cons_iff]
      rcases tryServer_cases net k first
          (tryServers net (k + 1) (servers.flatMap ServerAddr.parts)) with
        ⟨hrefuses, hturn⟩ | ⟨h', htakes, hturn⟩ | ⟨hrefuses, htakes, hturn⟩
      · rw [hturn, ih]
        simp [hrefuses, not_takes_of_refuses net hrefuses]
      · have hnot : ¬ Refuses net k first := fun hr => not_takes_of_refuses net hr h' htakes
        have hsame : Takes net k first h ↔ h' = h := by
          refine ⟨fun ht => ?_, fun heq => heq ▸ htakes⟩
          exact Option.some.inj (htakes.2.1.symm.trans ht.2.1)
        rw [hturn]
        simp [hnot, hsame]
      · rw [hturn]
        simp [hrefuses, htakes]

/-- A client connects to the first server of its list that takes the connection, provided that all
servers before it were found; an address that is not found ends the search. -/
theorem ConnectToServer_iff {servers : List ServerAddr} (hservers : servers ≠ [])
    {in_ConnStr : CStr} (hlist : in_ConnStr.bytes = connString servers)
    (hlen : in_ConnStr.strlen < 200) (h : α) (port : ℕ) :
    ConnectToServer net in_ConnStr = some (some (h, port)) ↔ Reaches net 0 servers h port := by
  rw [ConnectToServer, if_neg (not_le.mpr hlen), hlist, SplitToCmd_connString hservers]
  exact tryServers_iff net 0 servers h port

end

/-- Two servers, of which the first one is down. -/
def twoServers : List ServerAddr :=
  [⟨lit "10.0.0.1", 5005, by decide, by decide⟩, ⟨lit "10.0.0.2", 5005, by decide, by decide⟩]

/-- A network in which the addresses stand for themselves. -/
def secondServerUp : Network Bytes where
  socket _ := true
  gethostbyname ip := some ip.bytes
  connect h port := h = (lit "10.0.0.2").bytes && port = 5005

theorem ConnectToServer_second :
    ConnectToServer secondServerUp (cstr (connString twoServers)) =
      some (some ((lit "10.0.0.2").bytes, 5005)) := by
  have hreaches : Reaches secondServerUp 0 twoServers (lit "10.0.0.2").bytes 5005 := by
    refine (reaches_cons_iff _).mpr (.inr ⟨⟨rfl, _, rfl, by decide⟩, ?_⟩)
    exact (reaches_cons_iff _).mpr (.inl ⟨⟨rfl, rfl, by decide⟩, rfl⟩)
  exact (ConnectToServer_iff secondServerUp (List.cons_ne_nil _ _) (by decide) (by decide) _ _).mpr
    hreaches

end ChatRoom.Bank
