import ChatRoom.Client.Ban
import ChatRoom.Core.Accounts
import ChatRoom.Support.Terminal

/-!
# Login and registration

`checkUserInfo` of `mysql.c`, with `doLogin`, `doReg` and `getPassword`: what a user types before
the client connects to the server.  The standard input is the list of bytes that are still to be
read.  Both functions leave to the next read what they have no room for.
-/

namespace ChatRoom

open CString SqlText Terminal

/-! ## What is typed -/

/-- The characters that end a password. -/
def isLineEnd (ch : UInt8) : Bool := ch = 13 || ch = 10

/-- `getPassword`.  At the end of the input `getchar` returns -1, which becomes the character
255. -/
def getPassword (stdin : Bytes) : CStr × Bytes :=
  let pwd := readLine isLineEnd 255 20 stdin
  (cstr pwd.1, pwd.2)

/-- A user name and a password. -/
structure Credentials where
  username : CStr
  pwd : CStr
deriving DecidableEq

/-- What `doLogin` reads.  `none` is a user name that runs over the end of `username`;
`unwritten` is what lies in that array when the input ends before a name. -/
def readLogin (unwritten : CStr) (stdin : Bytes) : Option (Credentials × Bytes) :=
  let name := readWord isspace stdin
  if maxNameLen ≤ name.1.length then none
  else
    let username := if name.1 = [] then unwritten else cstr name.1
    let pwd := getPassword (readChar 255 name.2).2
    some (⟨username, pwd.1⟩, pwd.2)

structure Registration where
  username : CStr
  pwd : CStr
  repwd : CStr
deriving DecidableEq

/-- What one turn of the loop of `doReg` reads; `none` as in `readLogin`. -/
def readRegistration (stdin : Bytes) : Option (Registration × Bytes) :=
  let name := readWord isspace stdin
  if 32 ≤ name.1.length then none
  else
    let pwd := getPassword (readChar 255 name.2).2
    let repwd := getPassword pwd.2
    some (⟨cstr name.1, pwd.1, repwd.1⟩, repwd.2)

def Registration.accepted (r : Registration) : Bool := 6 ≤ r.pwd.strlen && r.pwd = r.repwd

theorem getPassword_suffix (stdin : Bytes) : (getPassword stdin).2 <:+ stdin :=
  readLine_suffix isLineEnd 255 20 stdin

/-- What a registration leaves stands behind its user name. -/
theorem readRegistration_suffix {stdin rest : Bytes} {r : Registration}
    (h : readRegistration stdin = some (r, rest)) : rest <:+ (readWord isspace stdin).2 := by
  simp only [readRegistration, Option.ite_none_left_eq_some, Option.some.injEq, Prod.mk.injEq] at h
  obtain ⟨-, -, rfl⟩ := h
  exact (getPassword_suffix _).trans ((getPassword_suffix _).trans (readChar_suffix _ _))

/-- A refused registration has used up some of the input. -/
theorem length_readRegistration_lt {stdin rest : Bytes} {r : Registration}
    (h : readRegistration stdin = some (r, rest)) (hrefused : r.accepted = false) :
    rest.length < stdin.length := by
  by_cases hempty : stdin = []
  · subst hempty
    -- two passwords that consist of the end of the input agree
    obtain rfl : (⟨cstr [], cstr (List.replicate 20 255), cstr (List.replicate 20 255)⟩ :
        Registration) = r := (Prod.mk.inj (Option.some.inj h)).1
    exact absurd hrefused (by decide)
  · exact (readRegistration_suffix h).length_le.trans_lt (length_readWord_lt hempty)

/-- The loop of `doReg`: the first registration that is accepted. -/
def typedRegistration (stdin : Bytes) : Option (Registration × Bytes) :=
  match hread : readRegistration stdin with
  | none => none
  | some (r, rest) =>
      if haccepted : r.accepted = true then some (r, rest)
      else
        have := length_readRegistration_lt hread (by simpa using haccepted)
        typedRegistration rest
termination_by stdin.length

theorem typedRegistration_of_accepted {stdin rest : Bytes} {r : Registration}
    (h : readRegistration stdin = some (r, rest)) (haccepted : r.accepted = true) :
    typedRegistration stdin = some (r, rest) := by
  rw [typedRegistration]
  split
  · rename_i hnone
    exact absurd (h.symm.trans hnone) (by simp)
  · rename_i r' rest' hread
    obtain ⟨rfl, rfl⟩ := Prod.mk.inj (Option.some.inj (h.symm.trans hread))
    rw [dif_pos haccepted]

theorem typedRegistration_of_refused {stdin rest : Bytes} {r : Registration}
    (h : readRegistration stdin = some (r, rest)) (hrefused : r.accepted = false) :
    typedRegistration stdin = typedRegistration rest := by
  rw [typedRegistration]
  split
  · rename_i hnone
    exact absurd (h.symm.trans hnone) (by simp)
  · rename_i r' rest' hread
    obtain ⟨rfl, rfl⟩ := Prod.mk.inj (Option.some.inj (h.symm.trans hread))
    rw [dif_neg (by simp [hrefused])]

theorem typedRegistration_of_overrun {stdin : Bytes} (h : readRegistration stdin = none) :
    typedRegistration stdin = none := by
  rw [typedRegistration]
  split
  · rfl
  · rename_i hsome
    exact absurd (h.symm.trans hsome) (by simp)

theorem typedRegistration_suffix {stdin rest : Bytes} {r : Registration}
    (h : typedRegistration stdin = some (r, rest)) : rest <:+ stdin := by
  induction stdin using typedRegistration.induct with
  | case1 stdin hread =>
      rw [typedRegistration_of_overrun hread] at h
      exact absurd h (by simp)
  | case2 stdin r' left hread haccepted =>
      rw [typedRegistration_of_accepted hread haccepted] at h
      obtain ⟨-, rfl⟩ := Prod.mk.inj (Option.some.inj h)
      exact (readRegistration_suffix hread).trans (readWord_suffix _ _)
  | case3 stdin r' left hread hrefused _ ih =>
      rw [typedRegistration_of_refused hread (by simpa using hrefused)] at h
      exact (ih h).trans ((readRegistration_suffix hread).trans (readWord_suffix _ _))

/-- The key that ended the choice in the menu is skipped. -/
theorem typedRegistration_newline (stdin : Bytes) :
    typedRegistration (10 :: stdin) = typedRegistration stdin := by
  have hread : readRegistration (10 :: stdin) = readRegistration stdin := by
    rw [readRegistration, readWord_cons_of_blank rfl, readRegistration]
  rcases h : readRegistration stdin with - | ⟨r, rest⟩
  · rw [typedRegistration_of_overrun h, typedRegistration_of_overrun (hread.trans h)]
  · cases haccepted : r.accepted with
    | true =>
        rw [typedRegistration_of_accepted h haccepted,
          typedRegistration_of_accepted (hread.trans h) haccepted]
    | false =>
        rw [typedRegistration_of_refused h haccepted,
          typedRegistration_of_refused (hread.trans h) haccepted]

theorem readLogin_newline (unwritten : CStr) (stdin : Bytes) :
    readLogin unwritten (10 :: stdin) = readLogin unwritten stdin := by
  rw [readLogin, readWord_cons_of_blank rfl, readLogin]

/-! ## The functions -/

/-- How `doLogin` ends: its code, the name that it leaves in `pSrcName`, and the rest of the
input. -/
structure Login where
  ulErrCode : ErrCode
  pSrcName : CStr
  stdin : Bytes

/-- The comparison with a row of the listing. -/
def Credentials.agrees (c : Credentials) (pSqlRow : Row) : Bool :=
  c.username = cstr (column pSqlRow 0) && c.pwd = cstr (column pSqlRow 1)

def doLogin (m : Mysql) (t : Tables) (unwritten pSrcName : CStr) (stdin : Bytes) : Option Login :=
  (readLogin unwritten stdin).map fun typed =>
    match m.querySelect t (utf8 accountsSelect) with
    | none => ⟨.failed, pSrcName, typed.2⟩
    -- nobody is looked up, and no failure is set
    | some none => ⟨.success, pSrcName, typed.2⟩
    | some (some rows) =>
        if rows.any typed.1.agrees then ⟨.success, typed.1.username, typed.2⟩
        else ⟨.failed, pSrcName, typed.2⟩

/-- The statement of `doReg`; a new user is not banned. -/
def registerText (username pwd : CStr) : Bytes :=
  snprintf 512 (sql usersInsert [username.bytes, pwd.bytes, decimal 0])

/-- `doReg`, with the tables after the login that follows.  What other processes do to the tables
between the insert and that login is `meanwhile`. -/
def doReg (m : Mysql) (t : Tables) (meanwhile : Tables → Tables) (unwritten pSrcName : CStr)
    (stdin : Bytes) : Option (Tables × Login) :=
  (typedRegistration stdin).bind fun typed =>
    match m.queryModify t (registerText typed.1.username typed.1.pwd) with
    | none => some (t, ⟨.failed, pSrcName, typed.2⟩)
    | some t' => (doLogin m (meanwhile t') unwritten pSrcName typed.2).map fun login =>
        (meanwhile t', login)

/-- How `checkUserInfo` ends: the process exits, it writes over the end of an array, it waits for
a choice at the end of the input, or it returns. -/
inductive Entry where
  | exited
  | overrun
  | inputEnded
  | returned (t : Tables) (login : Login)

def Entry.ofReturned : Option (Tables × Login) → Entry
  | none => .overrun
  | some (t, login) => .returned t login

/-- The menu of `checkUserInfo`: one character a turn, white space included. -/
def chooseEntry (m : Mysql) (t : Tables) (meanwhile : Tables → Tables)
    (unwritten pSrcName : CStr) : Bytes → Entry
  | [] => .inputEnded
  | x :: stdin =>
      if isdigit x = false then .exited
      else if x = 48 then .returned t ⟨.failed, pSrcName, stdin⟩
      else if x = 49 then .ofReturned (doReg m t meanwhile unwritten pSrcName stdin)
      else if x = 50 then
        .ofReturned ((doLogin m t unwritten pSrcName stdin).map fun login => (t, login))
      else chooseEntry m t meanwhile unwritten pSrcName stdin

def checkUserInfo (m : Mysql) (t : Tables) (meanwhile : Tables → Tables)
    (unwritten pSrcName : CStr) (stdin : Bytes) : Entry :=
  if m.connect then chooseEntry m t meanwhile unwritten pSrcName stdin else .exited

theorem doReg_newline (m : Mysql) (t : Tables) (meanwhile : Tables → Tables)
    (unwritten pSrcName : CStr) (stdin : Bytes) :
    doReg m t meanwhile unwritten pSrcName (10 :: stdin) =
      doReg m t meanwhile unwritten pSrcName stdin := by
  rw [doReg, typedRegistration_newline, doReg]

theorem doLogin_newline (m : Mysql) (t : Tables) (unwritten pSrcName : CStr) (stdin : Bytes) :
    doLogin m t unwritten pSrcName (10 :: stdin) = doLogin m t unwritten pSrcName stdin := by
  rw [doLogin, readLogin_newline, doLogin]

/-- The choice of a registration, typed as a line. -/
theorem checkUserInfo_register {m : Mysql} (hconnect : m.connect = true) (t : Tables)
    (meanwhile : Tables → Tables) (unwritten pSrcName : CStr) (stdin : Bytes) :
    checkUserInfo m t meanwhile unwritten pSrcName (49 :: 10 :: stdin) =
      .ofReturned (doReg m t meanwhile unwritten pSrcName stdin) := by
  rw [checkUserInfo, if_pos hconnect, ← doReg_newline]
  rfl

/-- The choice of a login, typed as a line. -/
theorem checkUserInfo_login {m : Mysql} (hconnect : m.connect = true) (t : Tables)
    (meanwhile : Tables → Tables) (unwritten pSrcName : CStr) (stdin : Bytes) :
    checkUserInfo m t meanwhile unwritten pSrcName (50 :: 10 :: stdin) =
      .ofReturned ((doLogin m t unwritten pSrcName stdin).map fun login => (t, login)) := by
  rw [checkUserInfo, if_pos hconnect, ← doLogin_newline]
  rfl

/-! ## Typing by lines -/

/-- A line that is typed where a password is asked for. -/
abbrev PasswordLine := { line : Bytes // ∀ b ∈ line, isLineEnd b = false ∧ b ≠ 0 }

/-- A line that is typed where a user name is asked for. -/
abbrev NameLine :=
  { line : Bytes // line ≠ [] ∧ line.length < maxNameLen ∧ ∀ b ∈ line, isspace b = false ∧ b ≠ 0 }

def PasswordLine.text (line : PasswordLine) : CStr :=
  ⟨line.val, fun hzero => (line.property 0 hzero).2 rfl⟩

def NameLine.text (line : NameLine) : CStr :=
  ⟨line.val, fun hzero => (line.property.2.2 0 hzero).2 rfl⟩

/-- The line with the key that ends it. -/
def entered (line : Bytes) : Bytes := line ++ [10]

/-- A C string in a memory of its own length. -/
theorem cstr_bytes (s : CStr) : cstr s.bytes = s :=
  CStr.ext_bytes (takeWhile_ne_zero_of_nulFree s.nulFree)

theorem cstr_take_text (line : PasswordLine) (k : ℕ) :
    (cstr (line.val.take k)).bytes = line.val.take k :=
  takeWhile_ne_zero_of_nulFree fun hzero =>
    (line.property 0 (List.mem_of_mem_take hzero)).2 rfl

/-- What is left of a line when its first characters have been read. -/
def PasswordLine.behind (line : PasswordLine) (k : ℕ) : PasswordLine :=
  ⟨line.val.drop k, fun b hb => line.property b (List.mem_of_mem_drop hb)⟩

theorem readLine_entered (line : PasswordLine) (rest : Bytes) :
    readLine isLineEnd 255 20 (entered line.val ++ rest) =
      if line.val.length < 20 then (line.val, rest)
      else (line.val.take 20, entered (line.val.drop 20) ++ rest) := by
  have hline : ∀ b ∈ line.val, isLineEnd b = false := fun b hb => (line.property b hb).1
  simp only [entered, List.append_assoc, List.singleton_append]
  exact readLine_append hline rfl 20

theorem getPassword_short {line : PasswordLine} (hshort : line.val.length < 20) (rest : Bytes) :
    getPassword (entered line.val ++ rest) = (line.text, rest) := by
  rw [getPassword, readLine_entered, if_pos hshort]
  exact congrArg (·, rest) (cstr_bytes line.text)

/-- A password line is cut after 20 characters, and its rest is read next. -/
theorem getPassword_long {line : PasswordLine} (hlong : ¬ line.val.length < 20) (rest : Bytes) :
    getPassword (entered line.val ++ rest) =
      (cstr (line.val.take 20), entered (line.behind 20).val ++ rest) := by
  rw [getPassword, readLine_entered, if_neg hlong]
  rfl

theorem readWord_entered (line : NameLine) (rest : Bytes) :
    readWord isspace (entered line.val ++ rest) = (line.val, 10 :: rest) := by
  rw [entered, List.append_assoc, List.singleton_append]
  exact readWord_append (fun b hb => (line.property.2.2 b hb).1) line.property.1 rfl

theorem cstr_name (line : NameLine) : cstr line.val = line.text := cstr_bytes line.text

/-- The input behind the user name is read as two passwords. -/
theorem readRegistration_entered (username : NameLine) (rest : Bytes) :
    readRegistration (entered username.val ++ rest) =
      some (⟨username.text, (getPassword rest).1, (getPassword (getPassword rest).2).1⟩,
        (getPassword (getPassword rest).2).2) := by
  have hfits : ¬ 32 ≤ username.val.length := by
    have hlen := username.property.2.1
    simp only [maxNameLen] at hlen
    omega
  simp only [readRegistration, readWord_entered, if_neg hfits, readChar, cstr_name]

theorem readLogin_entered (unwritten : CStr) (username : NameLine) (rest : Bytes) :
    readLogin unwritten (entered username.val ++ rest) =
      some (⟨username.text, (getPassword rest).1⟩, (getPassword rest).2) := by
  have hfits : ¬ maxNameLen ≤ username.val.length := not_le.mpr username.property.2.1
  simp only [readLogin, readWord_entered, if_neg hfits, if_neg username.property.1, readChar,
    cstr_name]

/-- A user name and two passwords, each typed on a line of its own. -/
structure TypedLines where
  username : NameLine
  pwd : PasswordLine
  repwd : PasswordLine

def TypedLines.bytes (l : TypedLines) : Bytes :=
  entered l.username.val ++ (entered l.pwd.val ++ entered l.repwd.val)

def TypedLines.registration (l : TypedLines) : Registration :=
  ⟨l.username.text, l.pwd.text, l.repwd.text⟩

/-- Both passwords leave room for the key that ends them. -/
def TypedLines.Short (l : TypedLines) : Prop := l.pwd.val.length < 20 ∧ l.repwd.val.length < 20

theorem readRegistration_short {l : TypedLines} (hshort : l.Short) (rest : Bytes) :
    readRegistration (l.bytes ++ rest) = some (l.registration, rest) := by
  have htext : l.bytes ++ rest = entered l.username.val ++
      (entered l.pwd.val ++ (entered l.repwd.val ++ rest)) := by
    simp only [TypedLines.bytes, List.append_assoc]
  rw [htext, readRegistration_entered, getPassword_short hshort.1, getPassword_short hshort.2]
  rfl

/-- Of any number of registrations the first that is accepted is taken. -/
theorem typedRegistration_lines {refused : List TypedLines}
    (hrefused : ∀ l ∈ refused, l.Short ∧ l.registration.accepted = false) {l : TypedLines}
    (hshort : l.Short) (haccepted : l.registration.accepted = true) (rest : Bytes) :
    typedRegistration ((refused.flatMap TypedLines.bytes) ++ (l.bytes ++ rest)) =
      some (l.registration, rest) := by
  induction refused with
  | nil => exact typedRegistration_of_accepted (readRegistration_short hshort rest) haccepted
  | cons first refused ih =>
      obtain ⟨⟨hfirst, hno⟩, htail⟩ := List.forall_mem_cons.mp hrefused
      rw [List.flatMap_cons, List.append_assoc,
        typedRegistration_of_refused (readRegistration_short hfirst _) hno]
      exact ih htail

/-! ## Which passwords are accepted -/

theorem strlen_take_text (line : PasswordLine) (k : ℕ) :
    (cstr (line.val.take k)).strlen = min k line.val.length := by
  rw [CStr.strlen, cstr_take_text, List.length_take]

theorem strlen_text (line : PasswordLine) : line.text.strlen = line.val.length := rfl

theorem Registration.accepted_iff (r : Registration) :
    r.accepted = true ↔ 6 ≤ r.pwd.strlen ∧ r.pwd = r.repwd := by
  simp [Registration.accepted]

/-- A password that fits is accepted if it is long enough and is typed again. -/
theorem confirmed_short_iff {pwd : PasswordLine} (hshort : pwd.val.length < 20)
    (repwd : PasswordLine) (rest : Bytes) :
    pwd.text = (getPassword (entered repwd.val ++ rest)).1 ↔ pwd.val = repwd.val := by
  by_cases hagain : repwd.val.length < 20
  · rw [getPassword_short hagain]
    exact ⟨fun h => congrArg CStr.bytes h, fun h => CStr.ext_bytes h⟩
  · -- the repeated password fills the array, the first one does not
    rw [getPassword_long hagain]
    refine iff_of_false (fun h => ?_) fun h => hagain (h ▸ hshort)
    have hlen := congrArg CStr.strlen h
    rw [strlen_take_text, strlen_text] at hlen
    omega

/-- A password that does not fit is compared with the rest of its own line. -/
theorem confirmed_long_iff {pwd : PasswordLine} (hlong : ¬ pwd.val.length < 20) (rest : Bytes) :
    cstr (pwd.val.take 20) = (getPassword (entered (pwd.behind 20).val ++ rest)).1 ↔
      40 ≤ pwd.val.length ∧ pwd.val.take 20 = (pwd.val.drop 20).take 20 := by
  have hbehind : (pwd.behind 20).val.length = pwd.val.length - 20 := List.length_drop
  by_cases hrest : (pwd.behind 20).val.length < 20
  · -- the rest of the line ends before the array is full
    rw [getPassword_short hrest]
    refine iff_of_false (fun h => ?_) fun h => by omega
    have hlen := congrArg CStr.strlen h
    rw [strlen_take_text, strlen_text] at hlen
    omega
  · rw [getPassword_long hrest]
    have hforty : 40 ≤ pwd.val.length := by omega
    have hfirst := cstr_take_text pwd 20
    have hsecond := cstr_take_text (pwd.behind 20) 20
    constructor
    · intro h
      refine ⟨hforty, ?_⟩
      rw [← hfirst, h, hsecond]
      rfl
    · rintro ⟨-, h⟩
      apply CStr.ext_bytes
      rw [hfirst, h, hsecond]
      rfl

/-- A password of 6 to 19 characters is accepted if it is typed again, one of 20 to 39 never, and
a longer one if it starts with the same 20 characters twice. -/
theorem accepted_iff_of_lines (l : TypedLines) (rest : Bytes) :
    ∃ r left, readRegistration (l.bytes ++ rest) = some (r, left) ∧
      (r.accepted = true ↔
        (6 ≤ l.pwd.val.length ∧ l.pwd.val.length < 20 ∧ l.pwd.val = l.repwd.val) ∨
          (40 ≤ l.pwd.val.length ∧ l.pwd.val.take 20 = (l.pwd.val.drop 20).take 20)) := by
  have htext : l.bytes ++ rest = entered l.username.val ++
      (entered l.pwd.val ++ (entered l.repwd.val ++ rest)) := by
    simp only [TypedLines.bytes, List.append_assoc]
  rw [htext, readRegistration_entered]
  refine ⟨_, _, rfl, ?_⟩
  rw [Registration.accepted_iff]
  by_cases hshort : l.pwd.val.length < 20
  · rw [getPassword_short hshort, confirmed_short_iff hshort]
    rw [strlen_text]
    refine ⟨fun h => .inl ⟨h.1, hshort, h.2⟩, fun h => ?_⟩
    rcases h with ⟨hsix, -, hsame⟩ | ⟨hforty, -⟩
    · exact ⟨hsix, hsame⟩
    · omega
  · rw [getPassword_long hshort, confirmed_long_iff hshort, strlen_take_text]
    refine ⟨fun h => .inr h.2, fun h => ?_⟩
    rcases h with ⟨-, hless, -⟩ | hlong
    · exact absurd hless hshort
    · exact ⟨by omega, hlong⟩

/-! ## Who gets in -/

/-- Some row of `users` reads as this name and this password. -/
def Tables.HasAccount (t : Tables) (c : Credentials) : Prop :=
  ∃ r ∈ t.users, c.username = cstr r.username ∧ c.pwd = cstr r.password

instance (t : Tables) (c : Credentials) : Decidable (t.HasAccount c) :=
  inferInstanceAs (Decidable (∃ r ∈ t.users, _))

theorem cstr_column (a : Bytes) (row : Row) : cstr (column (a :: row) 0) = cstr a :=
  cstr_append_zeros a 1

theorem agrees_iff (c : Credentials) (r : UserRow) :
    c.agrees [r.username, r.password] = true ↔
      c.username = cstr r.username ∧ c.pwd = cstr r.password := by
  have hsecond : column [r.username, r.password] 1 = column [r.password] 0 := rfl
  rw [Credentials.agrees, hsecond, cstr_column, cstr_column, Bool.and_eq_true, decide_eq_true_eq,
    decide_eq_true_eq]

theorem any_accountRows_iff (t : Tables) (c : Credentials) :
    (accountRows t).any c.agrees = true ↔ t.HasAccount c := by
  rw [accountRows, List.any_map, List.any_eq_true]
  exact exists_congr fun r => and_congr_right fun _ => agrees_iff c r

/-- `doLogin` with the typed name and password, on a database that answers. -/
def loginOutcome (t : Tables) (pSrcName : CStr) (typed : Credentials × Bytes) : Login :=
  if t.HasAccount typed.1 then ⟨.success, typed.1.username, typed.2⟩
  else ⟨.failed, pSrcName, typed.2⟩

theorem ofReturned_eq {result : Option (Tables × Login)} {t : Tables} {login : Login} :
    Entry.ofReturned result = .returned t login ↔ result = some (t, login) := by
  rcases result with - | ⟨t', login'⟩ <;> simp [Entry.ofReturned]

/-- A registration that lets its user in has logged him in. -/
theorem doReg_success {m : Mysql} {t t' : Tables} {meanwhile : Tables → Tables}
    {unwritten pSrcName name : CStr} {stdin rest : Bytes}
    (h : doReg m t meanwhile unwritten pSrcName stdin = some (t', ⟨.success, name, rest⟩)) :
    ∃ r left, typedRegistration stdin = some (r, left) ∧
      doLogin m t' unwritten pSrcName left = some ⟨.success, name, rest⟩ := by
  obtain ⟨⟨r, left⟩, htyped, h⟩ := Option.bind_eq_some_iff.mp h
  refine ⟨r, left, htyped, ?_⟩
  split at h
  · have hcode := congrArg Login.ulErrCode (Prod.mk.inj (Option.some.inj h)).2
    exact absurd hcode (by simp)
  · obtain ⟨login, hlogin, heq⟩ := Option.map_eq_some_iff.mp h
    obtain ⟨rfl, rfl⟩ := Prod.mk.inj heq
    exact hlogin

theorem account_of_loginOutcome {t : Tables} {pSrcName name : CStr} {typed : Credentials × Bytes}
    {rest : Bytes} (h : loginOutcome t pSrcName typed = ⟨.success, name, rest⟩) :
    t.HasAccount typed.1 ∧ name = typed.1.username ∧ rest = typed.2 := by
  rw [loginOutcome] at h
  split_ifs at h with haccount
  · obtain ⟨-, hname, hrest⟩ := Login.mk.inj h
    exact ⟨haccount, hname.symm, hrest.symm⟩
  · exact absurd (congrArg Login.ulErrCode h) (by simp)

/-- A row more is an account more. -/
theorem hasAccount_append {t : Tables} {name pwd ban : Bytes} {c : Credentials} :
    Tables.HasAccount { t with users := t.users ++ [⟨name, pwd, ban⟩] } c ↔
      t.HasAccount c ∨ (c.username = cstr name ∧ c.pwd = cstr pwd) := by
  simp [Tables.HasAccount, or_and_right, exists_or]

section
variable {m : Mysql} (hm : m.KeepsAccounts)
include hm

theorem doLogin_eq (t : Tables) (unwritten pSrcName : CStr) (stdin : Bytes) :
    doLogin m t unwritten pSrcName stdin =
      (readLogin unwritten stdin).map (loginOutcome t pSrcName) := by
  rw [doLogin, hm.accountsSelect]
  congr 1
  funext typed
  simp only [any_accountRows_iff, loginOutcome]

/-- A login succeeds exactly with the name and the password of an account. -/
theorem doLogin_success_iff {t : Tables} {unwritten pSrcName name : CStr} {stdin rest : Bytes} :
    doLogin m t unwritten pSrcName stdin = some ⟨.success, name, rest⟩ ↔
      ∃ pwd, readLogin unwritten stdin = some (⟨name, pwd⟩, rest) ∧ t.HasAccount ⟨name, pwd⟩ := by
  rw [doLogin_eq hm, Option.map_eq_some_iff]
  constructor
  · rintro ⟨⟨⟨username, pwd⟩, left⟩, hread, hlogin⟩
    obtain ⟨haccount, rfl, rfl⟩ := account_of_loginOutcome hlogin
    exact ⟨pwd, hread, haccount⟩
  · rintro ⟨pwd, hread, haccount⟩
    exact ⟨_, hread, if_pos haccount⟩

/-- A login that is typed by lines. -/
theorem doLogin_lines (t : Tables) (unwritten pSrcName : CStr) (username : NameLine)
    {pwd : PasswordLine} (hshort : pwd.val.length < 20) (rest : Bytes) :
    doLogin m t unwritten pSrcName (entered username.val ++ (entered pwd.val ++ rest)) =
      some (loginOutcome t pSrcName (⟨username.text, pwd.text⟩, rest)) := by
  rw [doLogin_eq hm, readLogin_entered, getPassword_short hshort]
  rfl

/-- The menu lets nobody in who has not typed, somewhere in the input, the name it returns and the
password of a row of that name. -/
theorem chooseEntry_success {t t' : Tables} {meanwhile : Tables → Tables}
    {unwritten pSrcName name : CStr} {stdin rest : Bytes}
    (h : chooseEntry m t meanwhile unwritten pSrcName stdin = .returned t' ⟨.success, name, rest⟩) :
    ∃ typed pwd, typed <:+ stdin ∧ readLogin unwritten typed = some (⟨name, pwd⟩, rest) ∧
      t'.HasAccount ⟨name, pwd⟩ := by
  induction stdin with
  | nil => exact absurd h (by simp [chooseEntry])
  | cons x stdin ih =>
      have hbehind : stdin <:+ x :: stdin := List.suffix_cons x stdin
      rw [chooseEntry] at h
      split_ifs at h
      · exact absurd (Login.mk.inj (Entry.returned.inj h).2).1 (by decide)
      · -- a registration ends with a login on what it has left
        obtain ⟨r, left, htyped, hlogin⟩ := doReg_success (ofReturned_eq.mp h)
        obtain ⟨pwd, hread, haccount⟩ := (doLogin_success_iff hm).mp hlogin
        exact ⟨left, pwd, (typedRegistration_suffix htyped).trans hbehind, hread, haccount⟩
      · obtain ⟨login, hlogin, heq⟩ := Option.map_eq_some_iff.mp (ofReturned_eq.mp h)
        obtain ⟨rfl, rfl⟩ := Prod.mk.inj heq
        obtain ⟨pwd, hread, haccount⟩ := (doLogin_success_iff hm).mp hlogin
        exact ⟨stdin, pwd, hbehind, hread, haccount⟩
      · obtain ⟨typed, pwd, hsuffix, hread, haccount⟩ := ih h
        exact ⟨typed, pwd, hsuffix.trans hbehind, hread, haccount⟩

theorem checkUserInfo_success {t t' : Tables} {meanwhile : Tables → Tables}
    {unwritten pSrcName name : CStr} {stdin rest : Bytes}
    (h : checkUserInfo m t meanwhile unwritten pSrcName stdin =
      .returned t' ⟨.success, name, rest⟩) :
    ∃ typed pwd, typed <:+ stdin ∧ readLogin unwritten typed = some (⟨name, pwd⟩, rest) ∧
      t'.HasAccount ⟨name, pwd⟩ := by
  rw [checkUserInfo, if_pos hm.connected] at h
  exact chooseEntry_success hm h

end

/-- What is typed in the examples below. -/
def bobLine : NameLine := ⟨[98, 111, 98], by simp [isspace, maxNameLen]⟩

def secretLine : PasswordLine := ⟨[115, 101, 99, 114, 101, 116], by simp [isLineEnd]⟩

/-- The tables with an account of one user. -/
def bobTables : Tables := ⟨[⟨bobLine.val, secretLine.val, [48]⟩], [], []⟩

theorem checkUserInfo_success_bob :
    ∃ typed pwd, typed <:+ 50 :: 10 :: (entered bobLine.val ++ (entered secretLine.val ++ [])) ∧
      readLogin (lit "") typed = some (⟨bobLine.text, pwd⟩, []) ∧
      bobTables.HasAccount ⟨bobLine.text, pwd⟩ := by
  have hlogin := doLogin_lines Mysql.referenceAccounts_keepsAccounts bobTables (lit "") (lit "")
    bobLine (by decide : secretLine.val.length < 20) []
  have haccount : bobTables.HasAccount ⟨bobLine.text, secretLine.text⟩ := by decide
  rw [loginOutcome, if_pos haccount] at hlogin
  have hentry : checkUserInfo Mysql.referenceAccounts bobTables id (lit "") (lit "")
      (50 :: 10 :: (entered bobLine.val ++ (entered secretLine.val ++ []))) =
        .returned bobTables ⟨.success, bobLine.text, []⟩ := by
    rw [checkUserInfo_login rfl, hlogin]
    rfl
  exact checkUserInfo_success Mysql.referenceAccounts_keepsAccounts hentry

end ChatRoom
