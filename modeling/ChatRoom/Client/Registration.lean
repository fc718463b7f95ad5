import ChatRoom.Client.Login

/-!
# What a registration stores

`doReg` pastes what was typed into an insert and then asks its user to log in.  The login compares
the typed texts with what the database has stored, so that the two agree exactly if the literals of
the insert stand for themselves.
-/

namespace ChatRoom

open CString SqlText Terminal

theorem length_registerText (username pwd : CStr) :
    (sql usersInsert [username.bytes, pwd.bytes, decimal 0]).length =
      58 + username.strlen + pwd.strlen := by
  have hone : (decimal 0).length = 1 := rfl
  rw [length_usersInsert, hone, CStr.strlen, CStr.strlen]
  omega

/-- The last literal of an insert of three values starts behind the quote that opens it. -/
theorem exists_lastLiteral {text name' pwd' ban' : Bytes}
    (hparse : usersInsertTemplate.parse text = some [name', pwd', ban']) :
    ∃ rest, 39 :: rest <:+ text ∧ readLiteral rest = some (ban', [41]) := by
  obtain ⟨first, r₁, as₁, htext, hfirst, hparse, has₁⟩ := parseFrom_cons hparse
  obtain ⟨second, r₂, as₂, hbehind₁, hsecond, hparse, has₂⟩ := parseFrom_cons hparse
  obtain ⟨third, r₃, as₃, hbehind₂, hthird, hparse, has₃⟩ := parseFrom_cons hparse
  obtain ⟨hlast, -⟩ := parseFrom_nil hparse
  have hban : ban' = r₃.1 := by simp_all
  have hread : r₃ = (ban', [41]) := Prod.ext hban.symm hlast
  refine ⟨third, ?_, hread ▸ hthird⟩
  have hthirdIn : 39 :: third <:+ second := by
    refine List.IsSuffix.trans ⟨utf8 ",", hbehind₂.symm⟩ ?_
    exact (List.suffix_cons _ _).trans (suffix_of_readLiteral hsecond)
  have hsecondIn : 39 :: second <:+ first := by
    refine List.IsSuffix.trans ⟨utf8 ",", hbehind₁.symm⟩ ?_
    exact (List.suffix_cons _ _).trans (suffix_of_readLiteral hfirst)
  have hfirstIn : 39 :: first <:+ text := ⟨usersInsertTemplate.head, htext.symm⟩
  exact hthirdIn.trans ((List.suffix_cons _ _).trans (hsecondIn.trans
    ((List.suffix_cons _ _).trans hfirstIn)))

section
variable {username pwd : CStr} (hname : username.strlen ≤ maxNameLen) (hpwd : pwd.strlen ≤ 20)
include hname hpwd

theorem registerText_eq :
    registerText username pwd = usersInsertTemplate.render [username.bytes, pwd.bytes, [48]] := by
  have hlen := length_registerText username pwd
  simp only [maxNameLen] at hname
  have hfits : (sql usersInsert [username.bytes, pwd.bytes, decimal 0]).length < 512 := by omega
  rw [registerText, snprintf_eq_self hfits, sql_usersInsert]
  rfl

/-- The insert reads as the typed texts exactly if they are verbatim; the buffer is long enough. -/
theorem parse_registerText_iff :
    usersInsertTemplate.parse (registerText username pwd) =
        some [username.bytes, pwd.bytes, [48]] ↔
      verbatim username.bytes = true ∧ verbatim pwd.bytes = true := by
  have hlen := length_registerText username pwd
  have hzero : verbatim (decimal 0) = true := by decide
  simp only [maxNameLen] at hname
  rw [registerText]
  rw [sql_usersInsert] at hlen ⊢
  have hiff := usersInsertTemplate.parse_snprintf_iff [username.bytes, pwd.bytes, decimal 0] 512
    (by decide) rfl rfl
  have hargs : (∀ a ∈ [username.bytes, pwd.bytes, decimal 0], verbatim a = true) ↔
      verbatim username.bytes = true ∧ verbatim pwd.bytes = true := by simp [hzero]
  rw [hargs, hlen] at hiff
  exact hiff.trans (and_iff_left (by omega))

/-- The ban that an insert stores is not empty: its literal ends behind a digit. -/
theorem ban_ne_nil {name' pwd' ban' : Bytes}
    (hparse : usersInsertTemplate.parse (registerText username pwd) = some [name', pwd', ban']) :
    ban' ≠ [] := by
  rintro rfl
  obtain ⟨rest, hrest, hread⟩ := exists_lastLiteral hparse
  rw [eq_of_readLiteral_nil hread, registerText_eq hname hpwd] at hrest
  have hend : [48, 39, 41] <:+ usersInsertTemplate.render [username.bytes, pwd.bytes, [48]] := by
    refine ⟨usersInsertTemplate.head ++ 39 :: (username.bytes ++ 39 :: (utf8 "," ++
      39 :: (pwd.bytes ++ 39 :: (utf8 "," ++ [39])))), ?_⟩
    have hclose : utf8 ")" = [41] := by decide
    simp [Template.render, renderFrom, usersInsertTemplate, hclose]
  have hsame := (List.suffix_of_suffix_length_le hrest hend le_rfl).eq_of_length rfl
  exact absurd hsame (by decide)

/-- A row that the insert has stored reads as what was typed only if it holds just that, and then
the typed texts are verbatim. -/
theorem eq_of_parse_registerText {name' pwd' ban' : Bytes}
    (hparse : usersInsertTemplate.parse (registerText username pwd) = some [name', pwd', ban'])
    (hreads : username = cstr name' ∧ pwd = cstr pwd') :
    name' = username.bytes ∧ verbatim username.bytes = true ∧ verbatim pwd.bytes = true := by
  have hban := List.length_pos_of_ne_nil (ban_ne_nil hname hpwd hparse)
  obtain ⟨hle, hfull⟩ := length_parseFrom hparse
  have hrender : renderFrom usersInsertTemplate.head usersInsertTemplate.tail [name', pwd', ban'] =
      sql usersInsert [name', pwd', ban'] := (sql_usersInsert name' pwd' ban').symm
  have htyped : registerText username pwd = sql usersInsert [username.bytes, pwd.bytes, [48]] := by
    rw [registerText_eq hname hpwd, sql_usersInsert]
  rw [hrender, htyped, length_usersInsert, length_usersInsert, List.length_singleton] at hle hfull
  -- a C string is no longer than the memory it is read from, so nothing was left out
  have hname' : username.bytes <+: name' := by
    rw [hreads.1]
    exact List.takeWhile_prefix _
  have hpwd' : pwd.bytes <+: pwd' := by
    rw [hreads.2]
    exact List.takeWhile_prefix _
  have hnameLen := hname'.length_le
  have hpwdLen := hpwd'.length_le
  obtain rfl := hname'.eq_of_length (by omega)
  obtain rfl := hpwd'.eq_of_length (by omega)
  have hverbatim := (hfull (by omega)).2
  exact ⟨rfl, hverbatim _ (by simp), hverbatim _ (by simp)⟩

end

/-! ## The dialogue -/

/-- How `checkUserInfo` returns from a registration whose insert came to `inserted`. -/
def registerOutcome (t : Tables) (meanwhile : Tables → Tables) (pSrcName : CStr)
    (typed : Credentials × Bytes) (loginLines : Bytes) : Option Tables → Entry
  | none => .returned t ⟨.failed, pSrcName, loginLines⟩
  | some t' => .returned (meanwhile t') (loginOutcome (meanwhile t') pSrcName typed)

/-- A registration and the login behind it, typed by lines: of any number of attempts the first
that is accepted is stored, and the login is checked against the tables that it finds. -/
theorem register_dialogue {m : Mysql} (hm : m.KeepsAccounts) (t : Tables)
    (meanwhile : Tables → Tables) (unwritten pSrcName : CStr) {refused : List TypedLines}
    (hrefused : ∀ l ∈ refused, l.Short ∧ l.registration.accepted = false) {l : TypedLines}
    (hshort : l.Short) (haccepted : l.registration.accepted = true) (username : NameLine)
    {pwd : PasswordLine} (hpwd : pwd.val.length < 20) (rest : Bytes) :
    checkUserInfo m t meanwhile unwritten pSrcName (49 :: 10 ::
        ((refused.flatMap TypedLines.bytes) ++
          (l.bytes ++ (entered username.val ++ (entered pwd.val ++ rest))))) =
      registerOutcome t meanwhile pSrcName (⟨username.text, pwd.text⟩, rest)
        (entered username.val ++ (entered pwd.val ++ rest))
        (m.queryModify t (registerText l.username.text l.pwd.text)) := by
  rw [checkUserInfo_register hm.connected, doReg, typedRegistration_lines hrefused hshort haccepted,
    Option.bind_some]
  dsimp only [TypedLines.registration]
  cases m.queryModify t (registerText l.username.text l.pwd.text) with
  | none => rfl
  | some t' =>
      dsimp only
      rw [doLogin_lines hm _ _ _ _ hpwd]
      rfl

/-- The first attempt confirms another password, the second one is stored. -/
theorem register_dialogue_bob :
    checkUserInfo Mysql.referenceAccounts ⟨[], [], []⟩ id (lit "") (lit "") (49 :: 10 ::
        (([⟨bobLine, secretLine, ⟨[], by simp⟩⟩].flatMap TypedLines.bytes) ++
          (TypedLines.bytes ⟨bobLine, secretLine, secretLine⟩ ++
            (entered bobLine.val ++ (entered secretLine.val ++ []))))) =
      registerOutcome ⟨[], [], []⟩ id (lit "") (⟨bobLine.text, secretLine.text⟩, [])
        (entered bobLine.val ++ (entered secretLine.val ++ []))
        (Mysql.referenceAccounts.queryModify ⟨[], [], []⟩
          (registerText bobLine.text secretLine.text)) :=
  register_dialogue Mysql.referenceAccounts_keepsAccounts _ _ _ _
    (List.forall_mem_singleton.mpr ⟨⟨by decide, by decide⟩, by decide⟩)
    ⟨by decide, by decide⟩ (by decide) bobLine (by decide) []

/-- The choice of a registration, one attempt, and a login with the password that was registered. -/
def TypedLines.thenLogin (l : TypedLines) (username : NameLine) (rest : Bytes) : Bytes :=
  49 :: 10 :: (l.bytes ++ (entered username.val ++ (entered l.pwd.val ++ rest)))

section
variable {m : Mysql} (hm : m.KeepsAccounts) (t : Tables) (unwritten pSrcName : CStr)
  {l : TypedLines} (hshort : l.Short) (haccepted : l.registration.accepted = true)
include hm hshort haccepted

theorem checkUserInfo_thenLogin (username : NameLine) (rest : Bytes) :
    checkUserInfo m t id unwritten pSrcName (l.thenLogin username rest) =
      registerOutcome t id pSrcName (⟨username.text, l.pwd.text⟩, rest)
        (entered username.val ++ (entered l.pwd.val ++ rest))
        (m.queryModify t (registerText l.username.text l.pwd.text)) := by
  have hnone : ∀ l ∈ ([] : List TypedLines), l.Short ∧ l.registration.accepted = false := by simp
  exact register_dialogue hm t id unwritten pSrcName hnone hshort haccepted username hshort.1 rest

/-- Who registers a new name and password, and then logs in with them, gets in exactly if the
literals of the insert stand for what was typed and the name is free. -/
theorem register_login_iff
    (hlegible : usersInsertTemplate.Legible (registerText l.username.text l.pwd.text))
    (hnew : ¬ t.HasAccount ⟨l.username.text, l.pwd.text⟩) (rest : Bytes) :
    (∃ t', checkUserInfo m t id unwritten pSrcName (l.thenLogin l.username rest) =
        .returned t' ⟨.success, l.username.text, rest⟩) ↔
      (verbatim l.username.val = true ∧ verbatim l.pwd.val = true) ∧
        l.username.val ∉ t.users.map UserRow.username := by
  have hname : l.username.text.strlen ≤ maxNameLen := l.username.property.2.1.le
  have hpwd : l.pwd.text.strlen ≤ 20 := hshort.1.le
  have hiff := parse_registerText_iff hname hpwd
  rw [checkUserInfo_thenLogin hm t unwritten pSrcName hshort haccepted]
  rcases hm.insert_cases t hlegible with hnone | ⟨name', pwd', ban', hparse, hfree, hquery⟩
  · rw [hnone]
    refine iff_of_false ?_ ?_
    · rintro ⟨t', h⟩
      exact absurd (congrArg Login.ulErrCode (Entry.returned.inj h).2) (by simp)
    · -- a statement that reads as its own texts is rejected only when the name is taken
      rintro ⟨hverbatim, hfree⟩
      have hquery := hm.usersInsert t _ _ _ _ (hiff.mpr hverbatim)
      have hnotTaken : l.username.text.bytes ∉ t.users.map UserRow.username := hfree
      rw [hnone, if_neg hnotTaken] at hquery
      exact absurd hquery (by simp)
  · rw [hquery]
    constructor
    · rintro ⟨t', h⟩
      obtain ⟨haccount, -, -⟩ := account_of_loginOutcome (Entry.returned.inj h).2
      rcases hasAccount_append.mp haccount with hold | hreads
      · exact absurd hold hnew
      · obtain ⟨rfl, hverbatim⟩ := eq_of_parse_registerText hname hpwd hparse hreads
        exact ⟨hverbatim, hfree⟩
    · rintro ⟨hverbatim, -⟩
      have hargs := hparse.symm.trans (hiff.mpr hverbatim)
      obtain ⟨rfl, rfl, rfl⟩ : name' = l.username.text.bytes ∧ pwd' = l.pwd.text.bytes ∧
          ban' = [48] := by simpa using hargs
      have haccount : Tables.HasAccount
          { t with users := t.users ++ [⟨l.username.text.bytes, l.pwd.text.bytes, [48]⟩] }
            ⟨l.username.text, l.pwd.text⟩ :=
        hasAccount_append.mpr (.inr ⟨(cstr_bytes _).symm, (cstr_bytes _).symm⟩)
      exact ⟨_, congrArg (Entry.returned _) (if_pos haccount)⟩

end

theorem register_login_iff_bob :
    (∃ t', checkUserInfo Mysql.referenceAccounts ⟨[], [], []⟩ id (lit "") (lit "")
        (TypedLines.thenLogin ⟨bobLine, secretLine, secretLine⟩ bobLine []) =
          .returned t' ⟨.success, bobLine.text, []⟩) ↔
      (verbatim bobLine.val = true ∧ verbatim secretLine.val = true) ∧
        bobLine.val ∉ ([] : List UserRow).map UserRow.username := by
  have hparse := (parse_registerText_iff (by decide : bobLine.text.strlen ≤ maxNameLen)
    (by decide : secretLine.text.strlen ≤ 20)).mpr ⟨by decide, by decide⟩
  exact register_login_iff Mysql.referenceAccounts_keepsAccounts ⟨[], [], []⟩ (lit "") (lit "")
    ⟨by decide, by decide⟩ (by decide) (.inr (hparse ▸ rfl)) (by decide) []

/-! ## A name with an escape -/

/-- A line with `\0` behind a name: the literal of the insert ends with a NUL. -/
def NameLine.escaped (username : NameLine) (hlen : username.val.length < 29) : NameLine :=
  ⟨username.val ++ [92, 48], by
    obtain ⟨hne, -, hbytes⟩ := username.property
    refine ⟨List.append_ne_nil_of_left_ne_nil hne _, by simp [maxNameLen]; omega, ?_⟩
    intro b hb
    rcases List.mem_append.mp hb with hb | hb
    · exact hbytes b hb
    · simp only [List.mem_cons, List.not_mem_nil, or_false] at hb
      rcases hb with rfl | rfl <;> decide⟩

theorem parse_registerText_escaped {username : NameLine} (hlen : username.val.length < 29)
    (hname : Plain username.val) {pwd : CStr} (hpwd : verbatim pwd.bytes = true)
    (hpwdLen : pwd.strlen ≤ 20) :
    usersInsertTemplate.parse (registerText (username.escaped hlen).text pwd) =
      some [username.val ++ [0], pwd.bytes, [48]] := by
  have hline : (username.escaped hlen).text.strlen ≤ maxNameLen := by
    have hlength : (username.escaped hlen).text.strlen = username.val.length + 2 := by
      simp [NameLine.escaped, NameLine.text, CStr.strlen]
    simp only [hlength, maxNameLen]
    omega
  let behind : Bytes := renderFrom (utf8 ",") [utf8 ",", utf8 ")"] [pwd.bytes, [48]]
  have hescape : readLiteral (92 :: 48 :: 39 :: behind) = some ([0], behind) := rfl
  have hfirst := readLiteral_plain_append hname (List.cons_ne_nil 92 (48 :: 39 :: behind))
  rw [hescape, Option.map_some] at hfirst
  have hrest : parseFrom (utf8 ",") [utf8 ",", utf8 ")"] behind = some [pwd.bytes, [48]] :=
    parseFrom_renderFrom (utf8 ",") rfl rfl (by simp [hpwd, verbatim])
  have hparse : parseFrom usersInsertTemplate.head usersInsertTemplate.tail
      (usersInsertTemplate.head ++ 39 :: (username.val ++ 92 :: 48 :: 39 :: behind)) =
        some [username.val ++ [0], pwd.bytes, [48]] := parseFrom_append hfirst hrest
  have htext : usersInsertTemplate.render [(username.escaped hlen).text.bytes, pwd.bytes, [48]] =
      usersInsertTemplate.head ++ 39 :: (username.val ++ 92 :: 48 :: 39 :: behind) := by
    simp [Template.render, renderFrom, usersInsertTemplate, NameLine.escaped, NameLine.text, behind]
  rw [registerText_eq hline hpwdLen, htext]
  exact hparse

/-- Who registers a name with `\0` behind it logs in under the name without it, whoever has an
account of that name and whatever its password is. -/
theorem register_escaped {m : Mysql} (hm : m.KeepsAccounts) (t : Tables)
    (unwritten pSrcName : CStr) {username : NameLine} (hlen : username.val.length < 29)
    (hname : Plain username.val) {pwd : PasswordLine} (hsix : 6 ≤ pwd.val.length)
    (hshort : pwd.val.length < 20) (hverbatim : verbatim pwd.val = true)
    (hfree : username.val ++ [0] ∉ t.users.map UserRow.username) (rest : Bytes) :
    checkUserInfo m t id unwritten pSrcName
        (TypedLines.thenLogin ⟨username.escaped hlen, pwd, pwd⟩ username rest) =
      .returned { t with users := t.users ++ [⟨username.val ++ [0], pwd.val, [48]⟩] }
        ⟨.success, username.text, rest⟩ := by
  have haccepted : (TypedLines.registration ⟨username.escaped hlen, pwd, pwd⟩).accepted = true := by
    rw [Registration.accepted_iff]
    exact ⟨hsix, rfl⟩
  have hpwd : verbatim pwd.text.bytes = true := hverbatim
  have hparse := parse_registerText_escaped hlen hname hpwd hshort.le
  rw [checkUserInfo_thenLogin hm t unwritten pSrcName ⟨hshort, hshort⟩ haccepted,
    hm.usersInsert t _ _ _ _ hparse, if_neg hfree]
  refine congrArg (Entry.returned _) (if_pos (hasAccount_append.mpr (.inr ⟨?_, ?_⟩)))
  · exact (cstr_append_zero username.text []).symm
  · exact (cstr_bytes pwd.text).symm

/-- A password that is not Bob's. -/
def chosenLine : PasswordLine := ⟨[99, 104, 111, 115, 101, 110], by simp [isLineEnd]⟩

theorem register_escaped_bob :
    checkUserInfo Mysql.referenceAccounts bobTables id (lit "") (lit "")
        (TypedLines.thenLogin ⟨bobLine.escaped (by decide), chosenLine, chosenLine⟩ bobLine []) =
      .returned ⟨bobTables.users ++ [⟨bobLine.val ++ [0], chosenLine.val, [48]⟩], [], []⟩
        ⟨.success, bobLine.text, []⟩ :=
  register_escaped Mysql.referenceAccounts_keepsAccounts bobTables (lit "") (lit "")
    (by decide) (by decide) (by decide) (by decide) (by decide) (by decide) []

end ChatRoom
