import ChatRoom.Client.Ban
import ChatRoom.Server.Friends

/-!
# Queries by name

The queries of both programs that are keyed by user names are compared with the relations in the
tables.  Each pastes the names as they are into a buffer of its own size, so that a name can be cut
off, and can mean another name to the reader of the string literals.
-/

namespace ChatRoom

open CString SqlText

/-! ## The statements in their buffers -/

def usersText (des : CStr) : Bytes := snprintf 64 (sql usersSelect [des.bytes])

def friendsText (src des : CStr) : Bytes := snprintf 128 (sql friendsSelect [src.bytes, des.bytes])

def deleteText (src des : CStr) : Bytes := snprintf 128 (sql friendsDelete [src.bytes, des.bytes])

def isBanText (user : CStr) : Bytes := snprintf 64 (sql isBanSelect [user.bytes])

def banText (flag : Bool) (user : CStr) : Bytes :=
  snprintf 64 (sql banUpdate [if flag then utf8 "1" else utf8 "0", user.bytes])

/-- The queries answer the relations of their names, whatever the tables are: `des` is a user, it is
a friend of the sender of the frame, the friendship is deleted and nothing else, and a ban of `user`
that was reported as set is the ban that the client of `user` finds. -/
structure NameQueriesAnswer (m : Mysql) (frame : MsgData) (des user : CStr)
    (unwritten : Unwritten) : Prop where
  users : ∀ t, checkUserIsExist m t des = some .success ↔
    ∃ row ∈ t.users, row.username = des.bytes
  friends : ∀ t, checkReciverIsFriend m t frame des = some .success ↔
    t.IsFriend frame.srcNameStr des
  deletes : ∀ t, deleteFriendFromMysql m t frame des =
    some { t with friends := t.friends.filter fun row =>
      row ≠ (frame.srcNameStr.bytes, des.bytes) ∧ row ≠ (des.bytes, frame.srcNameStr.bytes) }
  bans : ∀ t flag, (∃ row ∈ t.users, row.username = user.bytes) →
    banOneErrCode m t flag user = .success →
      IsBan m (banOne m t flag user) user unwritten = some flag

/-- The names mean themselves in a literal and fit the smallest of their buffers.  The ban may
instead be one that is never set because its statement breaks off; otherwise `atoi` must read the
character 0 as the number 0. -/
structure NamesFit (src des user : CStr) (unwritten : Unwritten) : Prop where
  users : verbatim des.bytes = true ∧ des.strlen ≤ 24
  friends : verbatim src.bytes = true ∧ src.strlen + des.strlen ≤ 70
  bans : unfinished (banText true user) = true ∨
    (verbatim user.bytes = true ∧ user.strlen ≤ 13 ∧ atoi (48 :: unwritten.behindIsBan) = 0)

/-- No name ends its literal and goes on with a statement of another shape. -/
structure NamesLegible (src des user : CStr) : Prop where
  users : usersSelectTemplate.Legible (usersText des)
  friends : friendsSelectTemplate.Legible (friendsText src des)
  isBan : isBanSelectTemplate.Legible (isBanText user)
  bans : ∀ flag, banUpdateTemplate.Legible (banText flag user)

/-! ## When a statement reads as its own names -/

theorem parse_usersText_iff (des : CStr) :
    usersSelectTemplate.parse (usersText des) = some [des.bytes] ↔
      verbatim des.bytes = true ∧ des.strlen ≤ 24 := by
  have hlen := length_usersSelect des.bytes
  rw [usersText]
  rw [sql_usersSelect] at hlen ⊢
  rw [usersSelectTemplate.parse_snprintf_iff [des.bytes] 64 (by decide) rfl rfl, hlen,
    List.forall_mem_singleton, CStr.strlen]
  exact and_congr_right fun _ => by omega

theorem parse_friendsText_iff (src des : CStr) :
    friendsSelectTemplate.parse (friendsText src des) = some [src.bytes, des.bytes] ↔
      (verbatim src.bytes = true ∧ verbatim des.bytes = true) ∧ src.strlen + des.strlen ≤ 70 := by
  have hlen := length_friendsSelect src.bytes des.bytes
  rw [friendsText]
  rw [sql_friendsSelect] at hlen ⊢
  rw [friendsSelectTemplate.parse_snprintf_iff [src.bytes, des.bytes] 128 (by decide) rfl rfl, hlen,
    List.forall_mem_cons, List.forall_mem_singleton, CStr.strlen, CStr.strlen]
  exact and_congr_right fun _ => by omega

theorem parse_deleteText {src des : CStr} (hsrc : verbatim src.bytes = true)
    (hdes : verbatim des.bytes = true) (hlen : src.strlen + des.strlen ≤ 70) :
    friendsDeleteTemplate.parse (deleteText src des) = some [src.bytes, des.bytes] := by
  have hlength := length_friendsDelete src.bytes des.bytes
  rw [CStr.strlen, CStr.strlen] at hlen
  rw [deleteText]
  rw [sql_friendsDelete] at hlength ⊢
  rw [friendsDeleteTemplate.parse_snprintf_iff [src.bytes, des.bytes] 128 (by decide) rfl rfl]
  exact ⟨by simp [hsrc, hdes], by omega⟩

theorem parse_isBanText_iff (user : CStr) :
    isBanSelectTemplate.parse (isBanText user) = some [user.bytes] ↔
      verbatim user.bytes = true ∧ user.strlen ≤ 13 := by
  have hlen := length_isBanSelect user.bytes
  rw [isBanText]
  rw [sql_isBanSelect] at hlen ⊢
  rw [isBanSelectTemplate.parse_snprintf_iff [user.bytes] 64 (by decide) rfl rfl, hlen,
    List.forall_mem_singleton, CStr.strlen]
  exact and_congr_right fun _ => by omega

/-- A cut look-up of a ban does not read as a longer name than the user's. -/
theorem length_le_of_parse_isBanText {user : CStr} {name : Bytes}
    (h : isBanSelectTemplate.parse (isBanText user) = some [name]) :
    name.length ≤ user.strlen := by
  rw [isBanText, sql_isBanSelect] at h
  have hle := isBanSelectTemplate.length_le_of_parse_snprintf h
  rw [← sql_isBanSelect, ← sql_isBanSelect, length_isBanSelect, length_isBanSelect] at hle
  rw [CStr.strlen]
  omega

theorem parse_banText (flag : Bool) {user : CStr} (huser : verbatim user.bytes = true)
    (hlen : user.strlen ≤ 17) :
    banUpdateTemplate.parse (banText flag user) =
      some [if flag then utf8 "1" else utf8 "0", user.bytes] := by
  have hflag : verbatim (if flag then utf8 "1" else utf8 "0") = true ∧
      (if flag then utf8 "1" else utf8 "0").length = 1 := by
    cases flag <;> exact ⟨rfl, rfl⟩
  have hlength := length_banUpdate (if flag then utf8 "1" else utf8 "0") user.bytes
  rw [CStr.strlen] at hlen
  rw [banText]
  rw [sql_banUpdate] at hlength ⊢
  rw [banUpdateTemplate.parse_snprintf_iff [_, user.bytes] 64 (by decide) rfl rfl]
  refine ⟨by simp [hflag.1, huser], ?_⟩
  rw [hlength, hflag.2]
  omega

/-- The statement of a ban up to the name. -/
def banHead (flag : Bool) : Bytes :=
  utf8 "update users set ban = '" ++
    ((if flag then utf8 "1" else utf8 "0") ++ utf8 "' where username = '")

theorem scan_banHead (flag : Bool) : scan (.code 0) (banHead flag) = .literal 0 := by
  cases flag <;> rfl

theorem banText_eq (flag : Bool) (user : CStr) :
    banText flag user = banHead flag ++ (user.bytes ++ [39]).take 18 := by
  have hhead : (banHead flag).length = 45 := by cases flag <;> rfl
  have hsql : sql banUpdate [if flag then utf8 "1" else utf8 "0", user.bytes] =
      banHead flag ++ (user.bytes ++ [39]) := by
    rw [sql_banUpdate]
    cases flag <;> rfl
  rw [banText, hsql, snprintf, show 64 - 1 = (banHead flag).length + 18 by rw [hhead],
    List.take_length_add_append]

/-- Whether the statement of a ban breaks off depends on the name only. -/
theorem unfinished_banText (flag : Bool) (user : CStr) :
    unfinished (banText flag user) = unfinished (banText true user) := by
  rw [unfinished, unfinished, banText_eq, banText_eq, scan_append, scan_append, scan_banHead,
    scan_banHead]

/-! ## What the queries answer -/

section
variable {m : Mysql} (hm : m.ReadsClientLiterals) {frame : MsgData} {des user : CStr}
  {unwritten : Unwritten}
include hm

theorem checkUserIsExist_of_parse {name : Bytes} (t : Tables)
    (h : usersSelectTemplate.parse (usersText des) = some [name]) :
    checkUserIsExist m t des = some .success ↔ ∃ row ∈ t.users, row.username = name := by
  have hquery : m.querySelect t (snprintf 64 (sql usersSelect [des.bytes])) =
      some (some (userRows t name)) :=
    hm.usersSelect t (usersText des) name h
  rw [checkUserIsExist, if_pos hm.connected, hquery, lookupCode_rows]
  simp only [userRows_eq_nil_iff, ite_not, Option.some.injEq, ite_eq_left_iff, reduceCtorEq,
    imp_false, not_not]

theorem checkReciverIsFriend_of_parse {src' des' : Bytes} (t : Tables)
    (h : friendsSelectTemplate.parse (friendsText frame.srcNameStr des) = some [src', des']) :
    checkReciverIsFriend m t frame des = some .success ↔ (src', des') ∈ t.friends := by
  have hquery : m.querySelect t
      (snprintf 128 (sql friendsSelect [frame.srcNameStr.bytes, des.bytes])) =
        some (some (friendRows t src' des')) :=
    hm.friendsSelect t (friendsText frame.srcNameStr des) src' des' h
  rw [checkReciverIsFriend, if_pos hm.connected, hquery, lookupCode_rows]
  simp only [friendRows_eq_nil_iff, ite_not, Option.some.injEq, ite_eq_left_iff, reduceCtorEq,
    imp_false, not_not]

theorem banOne_of_parse {flag : Bool} {flag' name : Bytes} (t : Tables)
    (h : banUpdateTemplate.parse (banText flag user) = some [flag', name]) :
    banOneErrCode m t flag user = .success ∧
      banOne m t flag user = { t with users := setBan t.users flag' name } := by
  have hquery : m.queryModify t (snprintf 64
      (sql banUpdate [if flag then utf8 "1" else utf8 "0", user.bytes])) =
        some { t with users := setBan t.users flag' name } :=
    hm.banUpdate t (banText flag user) flag' name h
  simp only [banOneErrCode, banOne, if_pos hm.connected, hquery, Option.isSome_some, reduceIte,
    Option.getD_some, and_self]

theorem banOneErrCode_of_unfinished {flag : Bool} (t : Tables)
    (h : unfinished (banText flag user) = true) : banOneErrCode m t flag user = .failed := by
  have hquery : m.queryModify t (snprintf 64
      (sql banUpdate [if flag then utf8 "1" else utf8 "0", user.bytes])) = none :=
    hm.unfinishedModify t (banText flag user) h
  simp only [banOneErrCode, if_pos hm.connected, hquery, Option.isSome_none, Bool.false_eq_true,
    reduceIte]

/-- The ban that the client finds is the first character of the ban of the first row of the name,
with what lies behind it in memory. -/
theorem IsBan_of_parse {t : Tables} {row : UserRow}
    (h : isBanSelectTemplate.parse (isBanText user) = some [user.bytes])
    (hrow : t.users.find? (·.username = user.bytes) = some row) :
    IsBan m t user unwritten =
      some (decide (atoi ((row.ban ++ [0]).take 1 ++ unwritten.behindIsBan) ≠ 0)) := by
  have hquery : m.querySelect t (snprintf 64 (sql isBanSelect [user.bytes])) =
      some (some (banRows t user.bytes)) :=
    hm.isBanSelect t (isBanText user) user.bytes h
  rw [IsBan, if_pos hm.connected, hquery]
  simp only [find?_banRows hrow]
  rfl

/-- A query that reads as another, not longer name finds no row that the client accepts. -/
theorem IsBan_of_parse_other {name : Bytes} (t : Tables)
    (h : isBanSelectTemplate.parse (isBanText user) = some [name])
    (hlen : name.length ≤ user.strlen) (hne : name ≠ user.bytes) :
    IsBan m t user unwritten = some unwritten.flag := by
  have hquery : m.querySelect t (snprintf 64 (sql isBanSelect [user.bytes])) =
      some (some (banRows t name)) :=
    hm.isBanSelect t (isBanText user) name h
  have hnone : (banRows t name).find? (fun pSqlRow => user = cstr (column pSqlRow 0)) = none := by
    refine List.find?_eq_none.mpr fun pSqlRow hmem => ?_
    obtain ⟨r, hr, rfl⟩ := List.mem_map.mp hmem
    have hname : r.username = name := of_decide_eq_true (List.mem_filter.mp hr).2
    have hcolumn : column [r.username, r.ban] 0 = name ++ [0] := by rw [← hname]; rfl
    rw [hcolumn, decide_eq_true_eq]
    intro huser
    -- the text of the row is a beginning of `name`, which is not longer than `user`
    have hstarts : user.bytes <+: name := by
      have hread : user.bytes = (name ++ [0]).takeWhile (· != 0) := congrArg CStr.bytes huser
      rw [hread, List.takeWhile_append]
      split_ifs
      · simp
      · exact List.takeWhile_prefix _
    exact hne (hstarts.eq_of_length_le hlen).symm
  rw [IsBan, if_pos hm.connected, hquery]
  simp only [hnone]

end

/-- After a ban of a user the first row of the user has it. -/
theorem find?_setBan {users : List UserRow} {name : Bytes} (flag : Bytes)
    (h : ∃ row ∈ users, row.username = name) :
    ∃ row, (setBan users flag name).find? (·.username = name) = some row ∧ row.ban = flag := by
  let set (r : UserRow) : UserRow := if r.username = name then { r with ban := flag } else r
  have hsame : (fun r : UserRow => decide (r.username = name)) ∘ set =
      fun r => decide (r.username = name) := by
    funext r
    by_cases hr : r.username = name <;> simp [set, hr]
  obtain ⟨row, hrow⟩ : ∃ row, users.find? (·.username = name) = some row :=
    Option.isSome_iff_exists.mp (List.find?_isSome.mpr (by simpa using h))
  have hname : row.username = name := by simpa using List.find?_some hrow
  refine ⟨set row, ?_, by simp [set, hname]⟩
  rw [setBan, List.find?_map, hsame, hrow, Option.map_some]

/-! ## Names that fit, and no others -/

section
variable {m : Mysql} (hm : m.ReadsClientLiterals) {frame : MsgData} {des user : CStr}
  {unwritten : Unwritten}
include hm

/-- A user look-up that is always right reads as its own name: a table of this one user shows
it. -/
theorem fits_of_userLookup (hlegible : usersSelectTemplate.Legible (usersText des))
    (h : ∀ t, checkUserIsExist m t des = some .success ↔
      ∃ row ∈ t.users, row.username = des.bytes) :
    verbatim des.bytes = true ∧ des.strlen ≤ 24 := by
  rw [← parse_usersText_iff]
  have hfound := (h ⟨[⟨des.bytes, [], []⟩], [], []⟩).mpr ⟨_, List.mem_singleton_self _, rfl⟩
  rcases hlegible with hcut | hparse
  · have hquery : m.querySelect ⟨[⟨des.bytes, [], []⟩], [], []⟩
        (snprintf 64 (sql usersSelect [des.bytes])) = none :=
      hm.unfinishedSelect _ (usersText des) hcut
    rw [checkUserIsExist, if_pos hm.connected, hquery] at hfound
    exact absurd hfound (by simp [lookupCode])
  · obtain ⟨args, hargs⟩ := Option.isSome_iff_exists.mp hparse
    obtain ⟨name, rfl⟩ := Template.eq_singleton_of_parse _ rfl hargs
    obtain ⟨row, hrow, rfl⟩ := (checkUserIsExist_of_parse hm _ hargs).mp hfound
    rw [List.mem_singleton.mp hrow] at hargs
    exact hargs

/-- A friend look-up that is always right reads as its own two names. -/
theorem fits_of_friendLookup
    (hlegible : friendsSelectTemplate.Legible (friendsText frame.srcNameStr des))
    (h : ∀ t, checkReciverIsFriend m t frame des = some .success ↔
      t.IsFriend frame.srcNameStr des) :
    (verbatim frame.srcNameStr.bytes = true ∧ verbatim des.bytes = true) ∧
      frame.srcNameStr.strlen + des.strlen ≤ 70 := by
  rw [← parse_friendsText_iff]
  have hfound := (h ⟨[], [(frame.srcNameStr.bytes, des.bytes)], []⟩).mpr
    (List.mem_singleton_self _)
  rcases hlegible with hcut | hparse
  · have hquery : m.querySelect ⟨[], [(frame.srcNameStr.bytes, des.bytes)], []⟩
        (snprintf 128 (sql friendsSelect [frame.srcNameStr.bytes, des.bytes])) = none :=
      hm.unfinishedSelect _ (friendsText frame.srcNameStr des) hcut
    rw [checkReciverIsFriend, if_pos hm.connected, hquery] at hfound
    exact absurd hfound (by simp [lookupCode])
  · obtain ⟨args, hargs⟩ := Option.isSome_iff_exists.mp hparse
    obtain ⟨src', des', rfl⟩ := Template.eq_pair_of_parse _ rfl hargs
    have hrow := (checkReciverIsFriend_of_parse hm _ hargs).mp hfound
    obtain ⟨rfl, rfl⟩ := Prod.mk.inj (List.mem_singleton.mp hrow)
    exact hargs

/-- Names that fit are deleted in both directions, and nothing else is. -/
theorem deleteFriendFromMysql_of_fit (hsrc : verbatim frame.srcNameStr.bytes = true)
    (hdes : verbatim des.bytes = true) (hlen : frame.srcNameStr.strlen + des.strlen ≤ 70)
    (t : Tables) :
    deleteFriendFromMysql m t frame des =
      some { t with friends := t.friends.filter fun row =>
        row ≠ (frame.srcNameStr.bytes, des.bytes) ∧
          row ≠ (des.bytes, frame.srcNameStr.bytes) } := by
  have hthere : ∀ t, m.queryModify t
      (snprintf 128 (sql friendsDelete [frame.srcNameStr.bytes, des.bytes])) = some { t with
        friends := t.friends.filter (· ≠ (frame.srcNameStr.bytes, des.bytes)) } :=
    fun t => hm.friendsDelete t (deleteText frame.srcNameStr des) _ _
      (parse_deleteText hsrc hdes hlen)
  have hback : ∀ t, m.queryModify t
      (snprintf 128 (sql friendsDelete [des.bytes, frame.srcNameStr.bytes])) = some { t with
        friends := t.friends.filter (· ≠ (des.bytes, frame.srcNameStr.bytes)) } :=
    fun t => hm.friendsDelete t (deleteText des frame.srcNameStr) _ _
      (parse_deleteText hdes hsrc (by omega))
  simp only [deleteFriendFromMysql, if_pos hm.connected, hthere, hback, Option.getD_some,
    List.filter_filter, Option.some.injEq, Tables.mk.injEq, true_and, and_true]
  refine List.filter_congr fun row _ => ?_
  simp only [Bool.decide_and, Bool.and_comm]

/-- The ban that was set is found by the client of a user whose name fits. -/
theorem IsBan_banOne_of_fit (huser : verbatim user.bytes = true) (hlen : user.strlen ≤ 13)
    (t : Tables) (flag : Bool) (hrow : ∃ row ∈ t.users, row.username = user.bytes) :
    IsBan m (banOne m t flag user) user unwritten =
      some (flag || decide (atoi (48 :: unwritten.behindIsBan) ≠ 0)) := by
  have hset := (banOne_of_parse hm t
    (parse_banText flag huser (hlen.trans (by decide)))).2
  obtain ⟨row, hfind, hban⟩ := find?_setBan (if flag then utf8 "1" else utf8 "0") hrow
  rw [hset, IsBan_of_parse hm ((parse_isBanText_iff user).mpr ⟨huser, hlen⟩) hfind, hban]
  cases flag with
  | false => rfl
  | true =>
      have hone : (utf8 "1" ++ [0]).take 1 ++ unwritten.behindIsBan =
          49 :: unwritten.behindIsBan := rfl
      simp only [reduceIte, hone, decide_eq_true (atoi_one_ne_zero _), Bool.true_or]

/-- A ban whose statement is read as one is reported as set, under whatever name it is read. -/
theorem banOneErrCode_of_legible {flag : Bool}
    (hlegible : banUpdateTemplate.Legible (banText flag user))
    (hcomplete : ¬ unfinished (banText true user) = true) (t : Tables) :
    banOneErrCode m t flag user = .success := by
  have hnotCut : ¬ unfinished (banText flag user) = true := by
    rwa [unfinished_banText]
  obtain ⟨args, hargs⟩ := Option.isSome_iff_exists.mp (hlegible.resolve_left hnotCut)
  obtain ⟨flag', name, rfl⟩ := Template.eq_pair_of_parse _ rfl hargs
  exact (banOne_of_parse hm t hargs).1

/-- If both bans of a user are found, the look-up reads as the user's own name: the ban of another
name leaves the variable as it was. -/
theorem fits_of_banLookup (hisBan : isBanSelectTemplate.Legible (isBanText user)) {t : Tables}
    (hfound : ∀ flag, IsBan m (banOne m t flag user) user unwritten = some flag) :
    verbatim user.bytes = true ∧ user.strlen ≤ 13 := by
  rw [← parse_isBanText_iff]
  rcases hisBan with hcut | hparse
  · have hquery : m.querySelect (banOne m t true user)
        (snprintf 64 (sql isBanSelect [user.bytes])) = none :=
      hm.unfinishedSelect _ (isBanText user) hcut
    have htrue := hfound true
    rw [IsBan, if_pos hm.connected, hquery] at htrue
    exact absurd htrue (by simp)
  · obtain ⟨args, hargs⟩ := Option.isSome_iff_exists.mp hparse
    obtain ⟨name, rfl⟩ := Template.eq_singleton_of_parse _ rfl hargs
    by_cases hname : name = user.bytes
    · exact hname ▸ hargs
    · have hother : ∀ flag, some unwritten.flag = some flag := fun flag => by
        have hlen := length_le_of_parse_isBanText hargs
        rw [← hfound flag, IsBan_of_parse_other hm _ hargs hlen hname]
      have hboth := (hother true).symm.trans (hother false)
      exact absurd hboth (by simp)

/-- A ban that is always found again has a statement that breaks off, or the name of its user
fits. -/
theorem fits_of_bans (hisBan : isBanSelectTemplate.Legible (isBanText user))
    (hlegible : ∀ flag, banUpdateTemplate.Legible (banText flag user))
    (h : ∀ t flag, (∃ row ∈ t.users, row.username = user.bytes) →
      banOneErrCode m t flag user = .success →
        IsBan m (banOne m t flag user) user unwritten = some flag) :
    unfinished (banText true user) = true ∨
      (verbatim user.bytes = true ∧ user.strlen ≤ 13 ∧
        atoi (48 :: unwritten.behindIsBan) = 0) := by
  refine or_iff_not_imp_left.mpr fun hcomplete => ?_
  let t : Tables := ⟨[⟨user.bytes, [], []⟩], [], []⟩
  have hrow : ∃ row ∈ t.users, row.username = user.bytes :=
    ⟨_, List.mem_singleton_self _, rfl⟩
  have hfound : ∀ flag, IsBan m (banOne m t flag user) user unwritten = some flag :=
    fun flag => h t flag hrow (banOneErrCode_of_legible hm (hlegible flag) hcomplete t)
  obtain ⟨huser, hlen⟩ := fits_of_banLookup hm hisBan hfound
  have hfalse := hfound false
  rw [IsBan_banOne_of_fit hm huser hlen t false hrow] at hfalse
  exact ⟨huser, hlen, by simpa using hfalse⟩

end

/-! ## All names -/

/-- The statement of a ban breaks off for the verbatim names of 18 bytes or more. -/
theorem unfinished_banText_iff {user : CStr} (huser : verbatim user.bytes = true) (flag : Bool) :
    unfinished (banText flag user) = true ↔ 18 ≤ user.strlen := by
  constructor
  · intro hcut
    by_contra hlen
    have hparse := parse_banText flag huser (by omega)
    exact absurd hcut (by simp [banUpdateTemplate.unfinished_of_parse rfl hparse])
  · intro hlen
    rw [CStr.strlen] at hlen
    have hscan := scan_take_verbatim huser 0 18
    rw [unfinished_banText, unfinished, banText_eq, scan_append,
      List.take_append_of_le_length hlen, scan_banHead]
    rcases List.mem_pair.mp hscan with hopen | hopen <;> rw [hopen]

section
variable {m : Mysql} (hm : m.ReadsClientLiterals)
include hm

/-- The queries answer the relations of names that mean themselves and fit, and of no other names,
as far as the statements do not become statements of another shape. -/
theorem nameQueriesAnswer_iff_fit (frame : MsgData) (des user : CStr) (unwritten : Unwritten) :
    (NamesFit frame.srcNameStr des user unwritten →
        NameQueriesAnswer m frame des user unwritten) ∧
      (NamesLegible frame.srcNameStr des user → NameQueriesAnswer m frame des user unwritten →
        NamesFit frame.srcNameStr des user unwritten) := by
  constructor
  · intro hfit
    obtain ⟨hdes, -⟩ := hfit.users
    obtain ⟨hsrc, hlen⟩ := hfit.friends
    have husers := (parse_usersText_iff des).mpr hfit.users
    have hfriends := (parse_friendsText_iff frame.srcNameStr des).mpr ⟨⟨hsrc, hdes⟩, hlen⟩
    refine ⟨fun t => checkUserIsExist_of_parse hm t husers,
      fun t => checkReciverIsFriend_of_parse hm t hfriends,
      deleteFriendFromMysql_of_fit hm hsrc hdes hlen, fun t flag hrow hreported => ?_⟩
    rcases hfit.bans with hcut | ⟨huser, huserLen, hzero⟩
    · rw [← unfinished_banText flag] at hcut
      rw [banOneErrCode_of_unfinished hm t hcut] at hreported
      exact absurd hreported (by simp)
    · rw [IsBan_banOne_of_fit hm huser huserLen t flag hrow]
      simp [hzero]
  · intro hlegible hanswer
    obtain ⟨⟨hsrc, -⟩, hlen⟩ := fits_of_friendLookup hm hlegible.friends hanswer.friends
    exact ⟨fits_of_userLookup hm hlegible.users hanswer.users, ⟨hsrc, hlen⟩,
      fits_of_bans hm hlegible.isBan hlegible.bans hanswer.bans⟩

end

/-- Short names without special characters, and a zero behind the variable of `IsBan`. -/
theorem nameQueriesAnswer_short :
    NameQueriesAnswer Mysql.referenceClient
      (MsgData.make .addFriend (lit "alice") (lit "bob") (lit "")) (lit "bob") (lit "carol")
      ⟨false, [0]⟩ := by
  refine (nameQueriesAnswer_iff_fit Mysql.referenceClient_readsClientLiterals _ _ _ _).1 ?_
  exact ⟨by decide +kernel, by decide +kernel, .inr (by decide +kernel)⟩

/-- A user whose name has 30 bytes does not exist for the look-up, which ends the server. -/
theorem not_nameQueriesAnswer :
    ¬ ∀ (m : Mysql) (frame : MsgData) (des user : CStr) (unwritten : Unwritten),
      m.ReadsClientLiterals →
        (∀ name ∈ [frame.srcNameStr, des, user], 1 ≤ name.strlen ∧ name.strlen ≤ 30) →
          NameQueriesAnswer m frame des user unwritten := by
  intro h
  let des : CStr := cstr (List.replicate 30 98)
  have hanswer := h Mysql.referenceClient (MsgData.make .addFriend (lit "a") des (lit "")) des
    (lit "a") ⟨false, [0]⟩ Mysql.referenceClient_readsClientLiterals (by decide +kernel)
  have hfound := (hanswer.users ⟨[⟨des.bytes, [], []⟩], [], []⟩).mpr
    ⟨_, List.mem_singleton_self _, rfl⟩
  have hended : checkUserIsExist Mysql.referenceClient ⟨[⟨des.bytes, [], []⟩], [], []⟩ des =
      none := by
    decide +kernel
  exact absurd (hended.symm.trans hfound) (by simp)

end ChatRoom
