import ChatRoom.Bank.Messages
import ChatRoom.Bank.Server

/-!
# The texts of the answers

What `procmessage` writes into `strSendBuffer`, what `pthid_main` sends for the rows of a statement,
and what a client reads of it.  The texts of the messages are in the encoding of the source files.
`toDouble` is the `double` into which the client library of the database fetches a number.
-/

namespace ChatRoom.Bank

open CString Program StepSystem

/-! ## Texts -/

/-- The characters of the messages. -/
def gbk : Char → Bytes
  | '系' => [0xCF, 0xB5]
  | '统' => [0xCD, 0xB3]
  | '繁' => [0xB7, 0xB1]
  | '忙' => [0xC3, 0xA6]
  | '操' => [0xB2, 0xD9]
  | '作' => [0xD7, 0xF7]
  | '员' => [0xD4, 0xB1]
  | '身' => [0xC9, 0xED]
  | '份' => [0xB7, 0xDD]
  | '认' => [0xC8, 0xCF]
  | '证' => [0xD6, 0xA4]
  | '失' => [0xCA, 0xA7]
  | '败' => [0xB0, 0xDC]
  | '故' => [0xB9, 0xCA]
  | '障' => [0xD5, 0xCF]
  | '客' => [0xBF, 0xCD]
  | '户' => [0xBB, 0xA7]
  | '余' => [0xD3, 0xE0]
  | '额' => [0xB6, 0xEE]
  | '不' => [0xB2, 0xBB]
  | '足' => [0xD7, 0xE3]
  | '转' => [0xD7, 0xAA]
  | '入' => [0xC8, 0xEB]
  | '帐' => [0xD5, 0xCA]
  | '非' => [0xB7, 0xC7]
  | '法' => [0xB7, 0xA8]
  | '信' => [0xD0, 0xC5]
  | '息' => [0xCF, 0xA2]
  | '存' => [0xB4, 0xE6]
  | '在' => [0xD4, 0xDA]
  | '。' => [0xA1, 0xA3]
  | c => [UInt8.ofNat c.toNat]

def gbkText (text : String) : Bytes := text.toList.flatMap gbk

section
variable (toDouble : ℚ → Double)

/-- The text of a reply to a request of the type `msgid`. -/
def Reply.text (msgid : ℤ) (r : Reply) : Bytes :=
  utf8 "<retno>" ++ formatInt r.retno ++ utf8 "</retno><retmesg>" ++ gbkText r.retmesg ++
    utf8 "</retmesg>" ++
      ((r.ye.map fun ye => utf8 "<ye>" ++ formatFixed2 (toDouble ye) ++ utf8 "</ye>").getD [] ++
        if msgid = 8 ∧ r.retno = 0 then
          utf8 "<totalcount>" ++ decimal r.vbank.length ++ utf8 "</totalcount>"
        else [])

/-- The message for a row of `vbank`, with its time as `to_char` writes it. -/
def rowText (row : ℤ × ℚ) (crttime : MemberText 19) : Bytes :=
  utf8 "<opertype>" ++ formatInt row.1 ++ utf8 "</opertype><je>" ++
    formatFixed2 (toDouble row.2) ++ utf8 "</je><crttime>" ++ crttime.text.bytes ++
    utf8 "</crttime>"

/-- What is sent for a request; an unknown one leaves `strSendBuffer` empty. -/
def answerOf (msgid : ℤ) (crttime : ℕ → MemberText 19) : Option Reply → Answer
  | none => ⟨cstr [], []⟩
  | some r =>
      ⟨cstr (r.text toDouble msgid),
        r.vbank.mapIdx fun i row => cstr (rowText toDouble row (crttime i))⟩

end

/-! ## What can be answered -/

/-- The messages of `procmessage`. -/
def retmesgs : List String :=
  ["ok", "系统繁忙。", "操作员身份认证失败。", "系统故障。", "客户身份认证失败。", "余额不足。",
    "转入帐户非法。", "客户信息不存在。"]

/-- A reply to a request of the type `msgid`: only a balance that was asked for follows, and only
the rows that were asked for. -/
structure Reply.Proper (msgid : ℤ) (r : Reply) : Prop where
  retno : r.retno = 0 ∨ r.retno = -1 ∨ r.retno = -2
  retmesg : r.retmesg ∈ retmesgs
  ye : r.ye ≠ none ↔ msgid = 7 ∧ r.retno = 0
  vbank : r.vbank ≠ [] → msgid = 8 ∧ r.retno = 0

/-- A proper reply, or none to a request of an unknown type. -/
def Suits (msgid : ℤ) : Option Reply → Prop
  | none => ¬ (1 ≤ msgid ∧ msgid ≤ 8)
  | some r => r.Proper msgid

section
variable {conn : Fin 5} {stbank : StBank}

theorem Worked.code {blocks : List Block} {codes : List ℤ} {iret : ℤ}
    (h : ∃ g, Worked blocks codes g iret) : iret = 0 ∨ iret ∈ codes ∨ 0 < iret := by
  obtain ⟨g, ⟨hzero, -⟩ | ⟨hcode, -⟩⟩ := h
  · exact .inl hzero
  · exact .inr hcode

theorem suits_reply {msgid retno : ℤ} {retmesg : String} (hmsgid : msgid ≠ 7)
    (hretno : retno = 0 ∨ retno = -1 ∨ retno = -2) (hretmesg : retmesg ∈ retmesgs) :
    Suits msgid (some (reply retno retmesg)) where
  retno := hretno
  retmesg := hretmesg
  ye := ⟨fun h => absurd rfl h, fun h => absurd h.1 hmsgid⟩
  vbank := fun h => absurd rfl h

theorem ok_mem_retmesgs : "ok" ∈ retmesgs := List.mem_cons_self

/-- The reply to a request that only succeeds or fails. -/
theorem suits_ite {msgid iret : ℤ} {retmesg : String} (hmsgid : msgid ≠ 7)
    (hretmesg : retmesg ∈ retmesgs) :
    Suits msgid (some (if iret = 0 then reply 0 "ok" else reply (-1) retmesg)) := by
  split
  · exact suits_reply hmsgid (.inl rfl) ok_mem_retmesgs
  · exact suits_reply hmsgid (.inr (.inl rfl)) hretmesg

theorem always_reads {msgid : ℤ} {retmesg : String} (hmsgid : msgid ≠ 7)
    (hretmesg : retmesg ∈ retmesgs) (function : BankProg ℤ) :
    (function.bind fun iret =>
      .ret (some (if iret = 0 then reply 0 "ok" else reply (-1) retmesg))).Always (Suits msgid) :=
  (Prog.always_of_forall (fun _ => trivial) function).bind fun _ _ => suits_ite hmsgid hretmesg

/-- A transaction ends, and then a reply follows. -/
theorem always_ends {msgid retno : ℤ} {retmesg : String} {program : BankProg Unit}
    (hmsgid : msgid ≠ 7) (hretno : retno = 0 ∨ retno = -1 ∨ retno = -2)
    (hretmesg : retmesg ∈ retmesgs) :
    (program.bind fun _ => .ret (some (reply retno retmesg))).Always (Suits msgid) :=
  (Prog.always_of_forall (fun _ => trivial) program).bind fun _ _ =>
    suits_reply hmsgid hretno hretmesg

/-- A request whose block is committed or rolled back. -/
theorem always_oneBlock {msgid : ℤ} (hmsgid : msgid ≠ 7) (function : BankProg ℤ) :
    (function.bind fun iret =>
      if iret = 0 then (commit conn).bind fun _ => .ret (some (reply 0 "ok"))
      else (rollback conn).bind fun _ => .ret (some (reply (-1) "系统故障。"))).Always
      (Suits msgid) := by
  refine (Prog.always_of_forall (fun _ => trivial) function).bind fun iret _ => ?_
  split
  · exact always_ends hmsgid (.inl rfl) ok_mem_retmesgs
  · exact always_ends hmsgid (.inr (.inl rfl)) (by simp [retmesgs])

/-- Every request of a known type gets a proper reply, whatever the database answers. -/
theorem always_procmessage (iconn : Option (Fin 5)) (stbank : StBank) :
    (procmessage iconn stbank).Always (Suits stbank.msgid) := by
  rcases iconn with - | conn
  · exact ⟨.inr (.inl rfl), by simp [reply, retmesgs],
      ⟨fun h => absurd rfl h, fun h => absurd h.2 (by decide)⟩, fun h => absurd rfl h⟩
  simp only [procmessage, Prog.bind_eq, Prog.pure_eq]
  by_cases h1 : stbank.msgid = 1
  · rw [if_pos h1]
    exact always_reads (by omega) (by simp [retmesgs]) _
  rw [if_neg h1]
  by_cases h2 : stbank.msgid = 2
  · rw [if_pos h2]
    exact always_oneBlock (by omega) _
  rw [if_neg h2]
  by_cases h3 : stbank.msgid = 3
  · rw [if_pos h3]
    exact always_reads (by omega) (by simp [retmesgs]) _
  rw [if_neg h3]
  by_cases h4 : stbank.msgid = 4
  · rw [if_pos h4]
    exact always_oneBlock (by omega) _
  rw [if_neg h4]
  by_cases h5 : stbank.msgid = 5
  · rw [if_pos h5]
    refine outline_msgid_5.always.bind fun iret hiret => ?_
    have hcode := Worked.code hiret
    rw [List.mem_singleton] at hcode
    split_ifs
    · exact always_ends (by omega) (.inl rfl) ok_mem_retmesgs
    · exact always_ends (by omega) (.inr (.inl rfl)) (by simp [retmesgs])
    · exact always_ends (by omega) (.inr (.inl rfl)) (by simp [retmesgs])
    · omega
  rw [if_neg h5]
  by_cases h6 : stbank.msgid = 6
  · rw [if_pos h6]
    refine outline_msgid_6.always.bind fun iret hiret => ?_
    have hcode := Worked.code hiret
    rw [List.mem_cons, List.mem_singleton] at hcode
    split_ifs
    · exact always_ends (by omega) (.inl rfl) ok_mem_retmesgs
    · exact always_ends (by omega) (.inr (.inl rfl)) (by simp [retmesgs])
    · exact always_ends (by omega) (.inr (.inr rfl)) (by simp [retmesgs])
    · exact always_ends (by omega) (.inr (.inl rfl)) (by simp [retmesgs])
    · omega
  rw [if_neg h6]
  by_cases h7 : stbank.msgid = 7
  · rw [if_pos h7]
    refine (Prog.always_of_forall (fun _ => trivial) _).bind fun r _ => ?_
    obtain ⟨iret, ye⟩ := r
    by_cases hzero : iret = 0
    · simp only [if_pos hzero]
      exact ⟨.inl rfl, ok_mem_retmesgs, ⟨fun _ => ⟨h7, rfl⟩, fun _ => Option.some_ne_none ye⟩,
        fun h => absurd rfl h⟩
    · simp only [if_neg hzero]
      exact ⟨.inr (.inl rfl), by simp [reply, retmesgs],
        ⟨fun h => absurd rfl h, fun h => absurd h.2 (by decide)⟩, fun h => absurd rfl h⟩
  rw [if_neg h7]
  by_cases h8 : stbank.msgid = 8
  · rw [if_pos h8]
    refine (Prog.always_of_forall (fun _ => trivial) _).bind fun r _ => ?_
    obtain ⟨iret, vbank⟩ := r
    by_cases hzero : iret = 0
    · simp only [if_pos hzero]
      exact ⟨.inl rfl, ok_mem_retmesgs, ⟨fun h => absurd rfl h, fun h => absurd h.1 h7⟩,
        fun _ => ⟨h8, rfl⟩⟩
    · simp only [if_neg hzero]
      exact suits_reply h7 (.inr (.inl rfl)) (by simp [retmesgs])
  rw [if_neg h8]
  exact fun hknown => by omega

end

/-- Every call that is under way can only end with an answer that suits its request, and every
answer that was given does. -/
structure Server.Suited (s : Server) : Prop where
  sessions : ∀ i session, s.sessions i = some session →
    session.rest.Always (Suits session.request.stbank.msgid)
  answered : ∀ p ∈ s.answered, Suits p.1.stbank.msgid p.2

/-- One session is replaced. -/
theorem forall_update {P : Session → Prop} {sessions : Fin 5 → Option Session} (iconn : Fin 5)
    {next : Option Session} (h : ∀ i session, sessions i = some session → P session)
    (hnext : ∀ session, next = some session → P session) :
    ∀ i session, Function.update sessions iconn next i = some session → P session := by
  intro i session hsession
  by_cases hi : i = iconn
  · rw [hi, Function.update_self] at hsession
    exact hnext session hsession
  · rw [Function.update_of_ne hi] at hsession
    exact h i session hsession

theorem suited_bankStep {t : Tables} {s s' : Server} {a : BankStep} (h : s.Suited)
    (hstep : bankStep t s a = some s') : s'.Suited := by
  have hnew : ∀ {request : Request} {answer : Option Reply},
      Suits request.stbank.msgid answer → ∀ p ∈ s.answered ++ [(request, answer)],
        Suits p.1.stbank.msgid p.2 := fun hanswer p hp => by
    rcases List.mem_append.mp hp with hold | hlast
    · exact h.answered p hold
    · obtain rfl := List.mem_singleton.mp hlast
      exact hanswer
  cases a with
  | enter iconn stbank =>
      rcases iconn with - | iconn
      · simp only [bankStep, Option.ite_none_left_eq_some] at hstep
        obtain rfl := Option.some.inj hstep.2
        exact ⟨h.sessions, hnew (always_procmessage none stbank)⟩
      · obtain ⟨-, rfl⟩ := step_enter hstep
        refine ⟨forall_update iconn h.sessions ?_, h.answered⟩
        rintro session ⟨⟩
        exact always_procmessage (some iconn) stbank
  | call iconn fault =>
      obtain ⟨request, op, next, store, r, hcalled, -, rfl⟩ := step_call hstep
      refine ⟨forall_update iconn h.sessions ?_, h.answered⟩
      rintro session ⟨⟩
      exact h.sessions iconn _ hcalled r
  | leave iconn =>
      obtain ⟨request, answer, hended, rfl⟩ := step_leave hstep
      refine ⟨forall_update iconn h.sessions ?_, hnew (h.sessions iconn _ hended)⟩
      intro session hnone
      cases hnone
  | mainExit =>
      obtain rfl := step_mainExit hstep
      refine ⟨?_, h.answered⟩
      intro i session hnone
      cases hnone

/-- However the requests of the clients come between each other, and whatever fails, every request
of a known type that is finished has got a proper reply. -/
theorem answered_suits (t : Tables) (steps : List BankStep) :
    EveryState (bankStep t) (fun s => ∀ p ∈ s.answered, Suits p.1.stbank.msgid p.2) .start
      steps := by
  have hstart : Server.start.Suited := by
    refine ⟨fun i session hnone => ?_, fun _ hp => absurd hp List.not_mem_nil⟩
    cases hnone
  exact everyState_of_invariant (fun _ _ _ h => suited_bankStep h) (fun _ h => h.answered) hstart
    steps

/-! ## The fields of an answer -/

def retnoTag : Tag := ⟨lit "retno", by decide, by decide⟩
def retmesgTag : Tag := ⟨lit "retmesg", by decide, by decide⟩
def yeTag : Tag := ⟨lit "ye", by decide, by decide⟩
def totalcountTag : Tag := ⟨lit "totalcount", by decide, by decide⟩
def crttimeTag : Tag := ⟨lit "crttime", by decide, by decide⟩

theorem plain_retmesg : ∀ text ∈ retmesgs, 0 ∉ gbkText text ∧ 60 ∉ gbkText text ∧
    32 ∉ gbkText text ∧ (gbkText text).length ≤ 22 := by
  decide

section
variable (toDouble : ℚ → Double)

def Reply.fields (msgid : ℤ) (r : Reply) (hretmesg : r.retmesg ∈ retmesgs) : List Field :=
  let plain := plain_retmesg _ hretmesg
  [numeralField retnoTag (formatInt r.retno) isnumeral_of_mem_formatInt,
    ⟨retmesgTag, ⟨gbkText r.retmesg, plain.1⟩, plain.2.1⟩] ++
    ((r.ye.map fun ye =>
        numeralField yeTag (formatFixed2 (toDouble ye)) isnumeral_of_mem_formatFixed2).toList ++
      if msgid = 8 ∧ r.retno = 0 then
        [numeralField totalcountTag (formatInt r.vbank.length) isnumeral_of_mem_formatInt]
      else [])

/-- The tags in the format strings. -/
theorem tag_texts :
    startTag retnoTag.name = utf8 "<retno>" ∧
      utf8 "</retno><retmesg>" = endTag retnoTag.name ++ startTag retmesgTag.name ∧
      endTag retmesgTag.name = utf8 "</retmesg>" ∧
      startTag yeTag.name = utf8 "<ye>" ∧ endTag yeTag.name = utf8 "</ye>" ∧
      startTag totalcountTag.name = utf8 "<totalcount>" ∧
      endTag totalcountTag.name = utf8 "</totalcount>" ∧
      startTag opertypeTag.name = utf8 "<opertype>" ∧
      utf8 "</opertype><je>" = endTag opertypeTag.name ++ startTag jeTag.name ∧
      utf8 "</je><crttime>" = endTag jeTag.name ++ startTag crttimeTag.name ∧
      endTag crttimeTag.name = utf8 "</crttime>" := by
  decide

theorem Reply.text_eq {msgid : ℤ} {r : Reply} (hretmesg : r.retmesg ∈ retmesgs) :
    r.text toDouble msgid = encode (r.fields toDouble msgid hretmesg) := by
  obtain ⟨hretno, hretmesg₁, hretmesg₂, hye, hye', hcount, hcount', -⟩ := tag_texts
  have hdecimal : formatInt r.vbank.length = decimal r.vbank.length := rfl
  rw [Reply.text, Reply.fields, ← hretno, hretmesg₁, ← hretmesg₂]
  rcases r.ye with - | ye <;> split_ifs <;>
    simp [encode, Field.text, numeralField, hye, hye', hcount, hcount', hdecimal]

/-- The fields of a row. -/
def rowFields (row : ℤ × ℚ) (crttime : MemberText 19) : List Field :=
  [numeralField opertypeTag (formatInt row.1) isnumeral_of_mem_formatInt,
    numeralField jeTag (formatFixed2 (toDouble row.2)) isnumeral_of_mem_formatFixed2,
    crttime.field crttimeTag]

theorem rowText_eq (row : ℤ × ℚ) (crttime : MemberText 19) :
    rowText toDouble row crttime = encode (rowFields toDouble row crttime) := by
  obtain ⟨-, -, -, -, -, -, -, hopertype, hje, hcrttime, hcrttime'⟩ := tag_texts
  rw [rowText, ← hopertype, hje, hcrttime, ← hcrttime']
  simp [rowFields, encode, Field.text, numeralField, MemberText.field]

/-! ## Lengths -/

/-- A reply whose types of rows and whose number of rows are numbers of the type `int`. -/
structure Reply.Typed (r : Reply) : Prop where
  rows : ∀ row ∈ r.vbank, -2 ^ 31 ≤ row.1 ∧ row.1 < 2 ^ 31
  count : r.vbank.length < 2 ^ 31

theorem length_rowText {row : ℤ × ℚ} (hopertype : -2 ^ 31 ≤ row.1 ∧ row.1 < 2 ^ 31)
    (crttime : MemberText 19) : (rowText toDouble row crttime).length < 1024 := by
  have h₁ := length_formatInt (z := row.1) (k := 10) (by omega) (by decide)
  have h₂ := length_formatFixed2 (toDouble row.2)
  have h₃ := crttime.short
  have h₄ : (utf8 "<opertype>").length = 10 ∧ (utf8 "</opertype><je>").length = 15 ∧
      (utf8 "</je><crttime>").length = 14 ∧ (utf8 "</crttime>").length = 10 := by decide
  rw [CStr.strlen] at h₃
  simp only [rowText, List.length_append]
  omega

theorem Reply.length_text {msgid : ℤ} {r : Reply} (hproper : r.Proper msgid) (htyped : r.Typed) :
    (r.text toDouble msgid).length < 1024 := by
  have hretno := length_formatInt (z := r.retno) (k := 1)
    (by rcases hproper.retno with h | h | h <;> rw [h] <;> decide) (by decide)
  have hretmesg := (plain_retmesg _ hproper.retmesg).2.2.2
  have hcount := (length_decimal_le_iff (n := r.vbank.length) (k := 10) (by decide)).mpr
    (htyped.count.trans (by decide))
  have htags : (utf8 "<retno>").length = 7 ∧ (utf8 "</retno><retmesg>").length = 17 ∧
      (utf8 "</retmesg>").length = 10 ∧ (utf8 "<ye>").length = 4 ∧ (utf8 "</ye>").length = 5 ∧
      (utf8 "<totalcount>").length = 12 ∧ (utf8 "</totalcount>").length = 13 := by decide
  have hye : ((r.ye.map fun ye =>
      utf8 "<ye>" ++ formatFixed2 (toDouble ye) ++ utf8 "</ye>").getD []).length ≤ 322 := by
    rcases hye : r.ye with - | ye
    · exact Nat.zero_le _
    · have hlen := length_formatFixed2 (toDouble ye)
      simp only [Option.map_some, Option.getD_some, List.length_append]
      omega
  simp only [Reply.text, List.length_append]
  split_ifs <;> simp only [List.length_append, List.length_nil] <;> omega

/-! ## What a client reads -/

variable {msgid : ℤ} {r : Reply} {crttime : ℕ → MemberText 19}

theorem reply_tags : retnoTag.name ≠ retmesgTag.name ∧ retnoTag.name ≠ yeTag.name ∧
    retnoTag.name ≠ totalcountTag.name ∧ retmesgTag.name ≠ yeTag.name ∧
    retmesgTag.name ≠ totalcountTag.name ∧ yeTag.name ≠ totalcountTag.name := by
  decide

/-- The fields that a client finds in the text of a reply. -/
theorem fieldOf_reply (msgid : ℤ) (hretmesg : r.retmesg ∈ retmesgs) :
    fieldOf (r.fields toDouble msgid hretmesg) retnoTag =
        some (numeralField retnoTag (formatInt r.retno) isnumeral_of_mem_formatInt) ∧
      (fieldOf (r.fields toDouble msgid hretmesg) retmesgTag).map Field.value =
        some ⟨gbkText r.retmesg, (plain_retmesg _ hretmesg).1⟩ ∧
      fieldOf (r.fields toDouble msgid hretmesg) yeTag = (r.ye.map fun ye =>
        numeralField yeTag (formatFixed2 (toDouble ye)) isnumeral_of_mem_formatFixed2) ∧
      fieldOf (r.fields toDouble msgid hretmesg) totalcountTag =
        if msgid = 8 ∧ r.retno = 0 then
          some (numeralField totalcountTag (formatInt r.vbank.length) isnumeral_of_mem_formatInt)
        else none := by
  obtain ⟨h₁, h₂, h₃, h₄, h₅, h₆⟩ := reply_tags
  rcases hye : r.ye with - | ye <;> by_cases hcount : msgid = 8 ∧ r.retno = 0 <;>
    simp [fieldOf, Reply.fields, hye, hcount, numeralField, h₁, h₂, h₃, h₄, h₅, h₆, h₆.symm,
      List.find?]

theorem bytes_cstr_text (msgid : ℤ) (hretmesg : r.retmesg ∈ retmesgs) :
    (cstr (r.text toDouble msgid)).bytes = encode (r.fields toDouble msgid hretmesg) := by
  rw [Reply.text_eq toDouble hretmesg, bytes_cstr_encode]

/-- The fields of a reply, as far as they are numbers. -/
theorem fieldInt_reply (hproper : r.Proper msgid) (htyped : r.Typed) :
    fieldInt (r.fields toDouble msgid hproper.retmesg) retnoTag = r.retno ∧
      fieldInt (r.fields toDouble msgid hproper.retmesg) totalcountTag = r.vbank.length := by
  obtain ⟨hretno, -, -, hfield⟩ := fieldOf_reply toDouble msgid hproper.retmesg
  have hsmall : -2 ^ 31 ≤ r.retno ∧ r.retno < 2 ^ 31 := by
    rcases hproper.retno with h | h | h <;> rw [h] <;> decide
  refine ⟨fieldInt_formatInt hretno hsmall.1 hsmall.2, ?_⟩
  by_cases hcount : msgid = 8 ∧ r.retno = 0
  · have hsmall := htyped.count
    rw [if_pos hcount] at hfield
    exact fieldInt_formatInt hfield (by omega) (by omega)
  · rw [if_neg hcount] at hfield
    have hempty : r.vbank = [] := by
      by_contra hne
      exact hcount (hproper.vbank hne)
    rw [fieldInt, bytes_fieldText_of_none hfield, hempty]
    rfl

/-- The text of a reply is read by its fields. -/
theorem GetXMLBufferInt_reply (hretmesg : r.retmesg ∈ retmesgs) (tag : Tag) :
    GetXMLBufferInt (cstr (r.text toDouble msgid)) tag.name =
      ((fieldOf (r.fields toDouble msgid hretmesg) tag).isSome,
        fieldInt (r.fields toDouble msgid hretmesg) tag) := by
  have htext := bytes_cstr_text toDouble msgid hretmesg
  rw [← List.append_nil (encode _)] at htext
  exact GetXMLBufferInt_fields htext fun _ => rfl

/-- The number of rows that the client goes on to read. -/
theorem totalcount_eq (hproper : r.Proper msgid) (htyped : r.Typed) :
    (GetXMLBufferInt (cstr (r.text toDouble msgid)) (lit "totalcount")).2 = r.vbank.length :=
  (congrArg Prod.snd (GetXMLBufferInt_reply toDouble hproper.retmesg totalcountTag)).trans
    (fieldInt_reply toDouble hproper htyped).2

/-- The answer to a request fits the client, if its function goes on with rows. -/
theorem fits_answerOf {listing : Bool} (hproper : r.Proper msgid) (htyped : r.Typed)
    (hlisting : msgid = 8 → listing = true) :
    (answerOf toDouble msgid crttime (some r)).Fits listing := by
  refine ⟨?_, ?_, ?_⟩
  · have hlen := r.length_text toDouble hproper htyped
    exact (strlen_cstr_le _).trans_lt hlen
  · intro row hrow
    obtain ⟨i, hi, rfl⟩ := List.mem_mapIdx.mp hrow
    have hopertype := htyped.rows _ (List.getElem_mem hi)
    exact (strlen_cstr_le _).trans_lt (length_rowText toDouble hopertype _)
  · have hcount := totalcount_eq toDouble hproper htyped
    simp only [answerOf, List.length_mapIdx]
    rw [hcount, Int.toNat_natCast]
    split_ifs with h
    · rfl
    · have hempty : r.vbank = [] := by
        by_contra hne
        exact h (hlisting (hproper.vbank hne).1)
      rw [hempty]
      rfl

/-- The text that `atof` is called with, as far as there is one. -/
def amountText (found : Option (CharArray 51)) : Option Bytes :=
  found.map fun array => (cstr array.bytes).bytes

theorem GetXMLBufferDouble_ye (hretmesg : r.retmesg ∈ retmesgs)
    (hamount : ∀ ye ∈ r.ye, (formatFixed2 (toDouble ye)).length ≤ 50) :
    amountText (GetXMLBufferDouble (cstr (r.text toDouble msgid)) (lit "ye")) =
      r.ye.map fun ye => formatFixed2 (toDouble ye) := by
  obtain ⟨-, -, hye, -⟩ := fieldOf_reply toDouble msgid hretmesg
  have htext := bytes_cstr_text toDouble msgid hretmesg
  rw [← List.append_nil (encode _)] at htext
  have hread : GetXMLBufferDouble (cstr (r.text toDouble msgid)) yeTag.name = _ :=
    GetXMLBufferDouble_fields htext fun _ => rfl
  rw [show lit "ye" = yeTag.name from rfl, hread]
  rcases hsome : r.ye with - | ye
  · rw [hsome, Option.map_none] at hye
    rw [fieldDouble, hye]
    rfl
  · rw [hsome, Option.map_some] at hye
    exact fieldDouble_numeral hye (hamount ye hsome)

/-- A row is read as it was sent. -/
theorem reads_rowText {row : ℤ × ℚ} {crttime : MemberText 19}
    (hopertype : -2 ^ 31 ≤ row.1 ∧ row.1 < 2 ^ 31)
    (hje : (formatFixed2 (toDouble row.2)).length ≤ 50) :
    GetXMLBufferInt (cstr (rowText toDouble row crttime)) (lit "opertype") = (true, row.1) ∧
      amountText (GetXMLBufferDouble (cstr (rowText toDouble row crttime)) (lit "je")) =
        some (formatFixed2 (toDouble row.2)) ∧
      cstr (GetXMLBuffer (cstr (rowText toDouble row crttime)) (lit "crttime")
        (CharArray.zero 20) 19).2.bytes = crttime.text := by
  have hnames : opertypeTag.name ≠ jeTag.name ∧ opertypeTag.name ≠ crttimeTag.name ∧
      jeTag.name ≠ crttimeTag.name := by decide
  have htext : (cstr (rowText toDouble row crttime)).bytes =
      encode (rowFields toDouble row crttime) ++ [] := by
    rw [rowText_eq, bytes_cstr_encode, List.append_nil]
  have hopertypeField : fieldOf (rowFields toDouble row crttime) opertypeTag =
      some (numeralField opertypeTag (formatInt row.1) isnumeral_of_mem_formatInt) := by
    simp [fieldOf, rowFields, numeralField]
  have hjeField : fieldOf (rowFields toDouble row crttime) jeTag =
      some (numeralField jeTag (formatFixed2 (toDouble row.2)) isnumeral_of_mem_formatFixed2) := by
    simp [fieldOf, rowFields, numeralField, hnames]
  have hcrttimeField : fieldOf (rowFields toDouble row crttime) crttimeTag =
      some (crttime.field crttimeTag) := by
    simp [fieldOf, rowFields, numeralField, MemberText.field, hnames]
  have hint : GetXMLBufferInt (cstr (rowText toDouble row crttime)) opertypeTag.name = _ :=
    GetXMLBufferInt_fields htext fun _ => rfl
  have hdouble : GetXMLBufferDouble (cstr (rowText toDouble row crttime)) jeTag.name = _ :=
    GetXMLBufferDouble_fields htext fun _ => rfl
  rw [hopertypeField, fieldInt_formatInt hopertypeField hopertype.1 hopertype.2] at hint
  have hcrttime := cstr_member htext hcrttimeField (by decide)
  exact ⟨hint, (congrArg amountText hdouble).trans (fieldDouble_numeral hjeField hje), hcrttime⟩

/-- What a client reads of an answer is what the server has meant: the code and the message, the
text of the balance, and each row of a statement with the text of its amount and its time; and no
text is too long for a buffer. -/
theorem reads_answerOf (hproper : r.Proper msgid) (htyped : r.Typed)
    (hamounts : ∀ q, q ∈ r.ye ∨ q ∈ r.vbank.map Prod.snd →
      (formatFixed2 (toDouble q)).length ≤ 50) :
    let answer := answerOf toDouble msgid crttime (some r)
    let message := answer.strSendBuffer
    (∀ listing, (msgid = 8 → listing = true) → answer.Fits listing) ∧
      GetXMLBufferInt message (lit "retno") = (true, r.retno) ∧
      (∀ n, 22 ≤ n → (cstr (GetXMLBuffer message (lit "retmesg")
        (CharArray.zero (n + 1)) n).2.bytes).bytes = gbkText r.retmesg) ∧
      amountText (GetXMLBufferDouble message (lit "ye")) =
        (r.ye.map fun ye => formatFixed2 (toDouble ye)) ∧
      GetXMLBufferInt message (lit "totalcount") =
        (decide (msgid = 8 ∧ r.retno = 0), (r.vbank.length : ℤ)) ∧
      answer.rows.length = r.vbank.length ∧
      ∀ i (h : i < r.vbank.length), ∃ row ∈ answer.rows[i]?,
        GetXMLBufferInt row (lit "opertype") = (true, r.vbank[i].1) ∧
          amountText (GetXMLBufferDouble row (lit "je")) =
            some (formatFixed2 (toDouble r.vbank[i].2)) ∧
          cstr (GetXMLBuffer row (lit "crttime") (CharArray.zero 20) 19).2.bytes =
            (crttime i).text := by
  obtain ⟨hretno, hretmesg, -, hcount⟩ := fieldOf_reply toDouble msgid hproper.retmesg
  obtain ⟨hretno', hcount'⟩ := fieldInt_reply toDouble hproper htyped
  have htext := bytes_cstr_text toDouble msgid hproper.retmesg
  rw [← List.append_nil (encode _)] at htext
  refine ⟨fun listing => fits_answerOf toDouble hproper htyped, ?_, ?_, ?_, ?_, ?_, ?_⟩
  · refine (GetXMLBufferInt_reply toDouble hproper.retmesg retnoTag).trans ?_
    rw [hretno, hretno']
    rfl
  · intro n hn
    obtain ⟨f, hf, hvalue⟩ := Option.map_eq_some_iff.mp hretmesg
    obtain ⟨-, -, hblank, hlen⟩ := plain_retmesg _ hproper.retmesg
    refine (cstr_GetXMLBuffer htext hf (by omega) (Nat.lt_succ_self n)).trans ?_
    rw [hvalue]
    exact trim_take_eq_self_iff.mpr ⟨hlen.trans hn, trimmed_of_not_mem hblank⟩
  · exact GetXMLBufferDouble_ye toDouble hproper.retmesg fun ye h => hamounts ye (.inl h)
  · refine (GetXMLBufferInt_reply toDouble hproper.retmesg totalcountTag).trans ?_
    rw [hcount', hcount]
    by_cases h : msgid = 8 ∧ r.retno = 0 <;> simp [h]
  · exact List.length_mapIdx
  · intro i hi
    have hmem : r.vbank[i] ∈ r.vbank := List.getElem_mem hi
    refine ⟨cstr (rowText toDouble r.vbank[i] (crttime i)), ?_, ?_⟩
    · simp [answerOf, hi]
    · exact reads_rowText toDouble (htyped.rows _ hmem)
        (hamounts _ (.inr (List.mem_map_of_mem hmem)))

end

def midnight : MemberText 19 := ⟨lit "2019-01-01 00:00:00", by decide, by decide, by decide⟩

/-- 12.5 as a `double`. -/
def twelveAndAHalf : Double := ⟨25 / 2, 25, -1, by decide, by decide, by decide, by norm_num⟩

/-- The statement of an account into which 12.50 was paid. -/
def paidStatement : Reply := ⟨0, "ok", none, [(2, 25 / 2)]⟩

theorem reads_paidStatement :
    let answer := answerOf (fun _ => twelveAndAHalf) 8 (fun _ => midnight) (some paidStatement)
    GetXMLBufferInt answer.strSendBuffer (lit "totalcount") = (true, 1) ∧
      ∃ row ∈ answer.rows[0]?,
        amountText (GetXMLBufferDouble row (lit "je")) = some (utf8 "12.50") ∧
        cstr (GetXMLBuffer row (lit "crttime") (CharArray.zero 20) 19).2.bytes =
          midnight.text := by
  have hproper : paidStatement.Proper 8 :=
    ⟨.inl rfl, ok_mem_retmesgs, by simp [paidStatement], fun _ => ⟨rfl, rfl⟩⟩
  have htyped : paidStatement.Typed := ⟨by simp [paidStatement], by decide⟩
  have htext : formatFixed2 twelveAndAHalf = utf8 "12.50" := by decide +kernel
  have hamounts : ∀ q, q ∈ paidStatement.ye ∨ q ∈ paidStatement.vbank.map Prod.snd →
      (formatFixed2 ((fun _ => twelveAndAHalf) q)).length ≤ 50 := fun q _ => by
    rw [htext]
    decide
  obtain ⟨-, -, -, -, hcount, -, hrows⟩ := reads_answerOf _ hproper htyped hamounts
  obtain ⟨row, hrow, -, hamount, hcrttime⟩ := hrows 0 (by decide)
  exact ⟨hcount, row, hrow, hamount.trans (congrArg some htext), hcrttime⟩

end ChatRoom.Bank
