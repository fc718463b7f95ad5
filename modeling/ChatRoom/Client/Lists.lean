import ChatRoom.Client.Ban
import ChatRoom.Core.Accounts
import ChatRoom.Server.Lookups

/-!
# The lists of users and of friends

`getUserList` and `getFriendList` of `mysql.c` print one column of a result set, each name by way
of a line of 32 bytes.  The query for the friends of a user goes through a buffer of 64 bytes.
-/

namespace ChatRoom

open CString SqlText

def friendListSelect : String := "select desName from friends where srcName = '%s'"

def friendListTemplate : Template := ⟨utf8 "select desName from friends where srcName = ", [[]]⟩

set_option maxRecDepth 2000 in
theorem sql_friendListSelect (name : Bytes) :
    sql friendListSelect [name] = friendListTemplate.render [name] := by
  rfl

theorem length_friendListSelect (name : Bytes) :
    (sql friendListSelect [name]).length = 46 + name.length := by
  have hfixed : friendListTemplate.fixedLength = 44 := rfl
  rw [sql_friendListSelect, friendListTemplate.length_render [name] rfl, hfixed]
  simp
  omega

/-- The friends of a user, in the order of the table. -/
def Tables.friendsOf (t : Tables) (name : Bytes) : List Bytes :=
  (t.friends.filter (·.1 = name)).map (·.2)

/-- MySQL on the statement of the list, in addition to those of the server. -/
structure Mysql.ListsFriends (m : Mysql) : Prop extends m.Documented where
  friendListSelect : ∀ t name, Plain name →
    m.querySelect t (sql friendListSelect [name]) = some (some ((t.friendsOf name).map ([·])))

/-! ## The functions -/

/-- The line of a name. -/
def nameLine (pRow : Row) : Bytes :=
  snprintf 32 (format (utf8 "用户:%s\t\t") [(cstr (column pRow 0)).bytes])

/-- What both functions print of the outcome of their query. -/
def printNames (heading : Bytes) : Option (Option (List Row)) → List Bytes
  | some (some rows) => heading :: rows.map nameLine
  | _ => []

def userListHeading : Bytes := utf8 "所有用户列表(exit退出):"
def friendListHeading : Bytes := utf8 "好友列表(exit退出):"

/-- `getUserList`, up to its wait for "exit"; `none` is the end of the process. -/
def getUserList (m : Mysql) (t : Tables) : Option (List Bytes) :=
  if m.connect then some (printNames userListHeading (m.querySelect t (utf8 accountsSelect)))
  else none

/-- `getFriendList`, likewise. -/
def getFriendList (m : Mysql) (t : Tables) (pSrcName : CStr) : Option (List Bytes) :=
  if m.connect then
    some (printNames friendListHeading
      (m.querySelect t (snprintf 64 (sql friendListSelect [pSrcName.bytes]))))
  else none

/-! ## The lines -/

/-- The line of a name in full. -/
def fullNameLine (name : Bytes) : Bytes := utf8 "用户:" ++ (name ++ [9, 9])

/-- A name is shown in full exactly if it is read to its end and fits the line. -/
theorem nameLine_eq_iff (name : Bytes) (rest : Row) :
    nameLine (name :: rest) = fullNameLine name ↔ 0 ∉ name ∧ name.length ≤ 22 := by
  have hread : cstr (column (name :: rest) 0) = cstr name :=
    cstr_append_zeros name 1
  have htext : ∀ shown : Bytes, format (utf8 "用户:%s\t\t") [shown] = fullNameLine shown := fun _ =>
    rfl
  have hlen : ∀ shown : Bytes, (fullNameLine shown).length = shown.length + 9 := fun shown => by
    have hlabel : (utf8 "用户:").length = 7 := by decide
    rw [fullNameLine, List.length_append, List.length_append, hlabel]
    exact Nat.add_comm _ _
  rw [nameLine, hread, htext]
  constructor
  · intro h
    have hsame := congrArg List.length h
    have hle := strlen_cstr_le name
    rw [length_snprintf, hlen, hlen] at hsame
    rw [CStr.strlen] at hle
    have hwhole : (cstr name).bytes = name :=
      (List.takeWhile_prefix _).eq_of_length (by rw [← bytes_cstr]; omega)
    exact ⟨(bytes_cstr_eq_self_iff name).mp hwhole, by omega⟩
  · rintro ⟨hnul, hfits⟩
    rw [(bytes_cstr_eq_self_iff name).mpr hnul, snprintf_eq_self (by rw [hlen]; omega)]

/-- The list of all users shows every name in full exactly if each is read to its end and fits. -/
theorem getUserList_iff {m : Mysql} (hm : m.KeepsAccounts) (t : Tables) :
    getUserList m t =
        some (userListHeading :: t.users.map fun row => fullNameLine row.username) ↔
      ∀ row ∈ t.users, 0 ∉ row.username ∧ row.username.length ≤ 22 := by
  rw [getUserList, if_pos hm.connected, hm.accountsSelect, printNames, accountRows, List.map_map,
    Option.some.injEq, List.cons.injEq, List.map_inj_left]
  simp only [Function.comp_apply, nameLine_eq_iff, true_and]

/-! ## The friends -/

/-- The query for the friends of a name is cut behind its opening quote. -/
theorem unfinished_friendListSelect {name : Bytes} (hname : Plain name)
    (hlong : 17 < name.length) :
    unfinished (snprintf 64 (sql friendListSelect [name])) = true := by
  let head : Bytes := utf8 "select desName from friends where srcName = "
  have htext : sql friendListSelect [name] = (head ++ [39]) ++ (name ++ [39]) := by
    rw [sql_friendListSelect]
    rfl
  have hhead : (head ++ [39]).length = 45 := rfl
  have hcut : (sql friendListSelect [name]).take 63 = (head ++ [39]) ++ name.take 18 := by
    rw [htext, List.take_append, hhead, List.take_of_length_le (by rw [hhead]; decide),
      List.take_append_of_le_length (by omega)]
  have hopen : scan (.code 0) (head ++ [39]) = .literal 0 := rfl
  have hscan : scan (.code 0) ((sql friendListSelect [name]).take 63) = .literal 0 := by
    rw [hcut, scan_append, hopen, scan_literal (hname.take 18)]
  rw [snprintf, unfinished, hscan]

section
variable {m : Mysql} (hm : m.ListsFriends) (t : Tables) {src : CStr} (hplain : Plain src.bytes)
include hm hplain

theorem getFriendList_eq :
    getFriendList m t src = some (if src.strlen ≤ 17 then
      friendListHeading :: (t.friendsOf src.bytes).map fun d => nameLine [d] else []) := by
  rw [getFriendList, if_pos hm.connected]
  split_ifs with hfits
  · have hlen : (sql friendListSelect [src.bytes]).length < 64 := by
      rw [length_friendListSelect]
      rw [CStr.strlen] at hfits
      omega
    rw [snprintf_eq_self hlen, hm.friendListSelect t _ hplain, printNames, List.map_map]
    rfl
  · have hcut := unfinished_friendListSelect hplain (by rw [CStr.strlen] at hfits; omega)
    rw [hm.unfinishedSelect t _ hcut, printNames]
    simp

/-- The list shows all friends in full exactly if the own name has at most 17 bytes, and those of
the friends at most 22. -/
theorem getFriendList_iff :
    getFriendList m t src =
        some (friendListHeading :: (t.friendsOf src.bytes).map fullNameLine) ↔
      src.strlen ≤ 17 ∧ ∀ d ∈ t.friendsOf src.bytes, 0 ∉ d ∧ d.length ≤ 22 := by
  rw [getFriendList_eq hm t hplain, Option.some.injEq]
  split_ifs with hfits
  · rw [List.cons.injEq, List.map_inj_left]
    simp only [nameLine_eq_iff, hfits, true_and]
  · exact iff_of_false (by simp) fun h => hfits h.1

/-- The list shows a user's friends in full under that condition, and they are those to whom the
server lets the user write. -/
theorem friendList_agrees (hlen : src.strlen ≤ maxNameLen) :
    (getFriendList m t src =
          some (friendListHeading :: (t.friendsOf src.bytes).map fullNameLine) ↔
        src.strlen ≤ 17 ∧ ∀ d ∈ t.friendsOf src.bytes, 0 ∉ d ∧ d.length ≤ 22) ∧
      ∀ (frame : MsgData) (des : CStr), frame.srcNameStr = src → Plain des.bytes →
        des.strlen ≤ maxNameLen →
          (checkReciverIsFriend m t frame des = some .success ↔
            des.bytes ∈ t.friendsOf src.bytes) := by
  refine ⟨getFriendList_iff hm t hplain, fun frame des hframe hdes hdesLen => ?_⟩
  have hmem : des.bytes ∈ t.friendsOf src.bytes ↔ (src.bytes, des.bytes) ∈ t.friends := by
    simp [Tables.friendsOf]
  rw [hmem, checkReciverIsFriend_documented hm.toDocumented hframe hplain hdes hlen hdesLen]
  split_ifs with hfriend
  · exact iff_of_true rfl hfriend
  · exact iff_of_false (by simp) hfriend

end

/-! ## A reference interpreter -/

/-- The interpreter of the server's statements, with that of the list added. -/
def Mysql.referenceLists : Mysql :=
  { Mysql.reference with
    querySelect := fun t text =>
      match friendListTemplate.parse text with
      | some [name] => some (some ((t.friendsOf name).map ([·])))
      | _ => Mysql.reference.querySelect t text }

/-- A select of the server is passed on. -/
theorem querySelect_referenceLists {other : Template} {text : Bytes} {args : List Bytes}
    {t : Tables} (h : other.parse text = some args)
    (hheads : ¬ other.head <+: friendListTemplate.head ∧
      ¬ friendListTemplate.head <+: other.head) :
    Mysql.referenceLists.querySelect t text = Mysql.reference.querySelect t text := by
  have hother := parse_eq_none_of_head (prefix_of_parseFrom h) hheads
  simp only [Mysql.referenceLists, hother]

theorem Mysql.referenceLists_listsFriends : Mysql.referenceLists.ListsFriends where
  connected := rfl
  friendsSelect t src des hsrc hdes := by
    have hparse := friendsSelectTemplate.parse_render [src, des] rfl rfl
      (by simp [hsrc, hdes])
    rw [sql_friendsSelect, querySelect_referenceLists hparse (by decide)]
    exact reference_readsLiterals.friendsSelect t _ src des hparse
  usersSelect t name hname := by
    have hparse := usersSelectTemplate.parse_render [name] rfl rfl
      (by simp [hname])
    rw [sql_usersSelect, querySelect_referenceLists hparse (by decide)]
    exact reference_readsLiterals.usersSelect t _ name hparse
  messageSelect t des hdes := by
    have hparse := messageSelectTemplate.parse_render [des] rfl rfl
      (by simp [hdes])
    rw [sql_messageSelect, querySelect_referenceLists hparse (by decide)]
    exact reference_readsLiterals.messageSelect t _ des hparse
  friendsDelete := reference_documented.friendsDelete
  messageInsert := reference_documented.messageInsert
  messageDelete := reference_documented.messageDelete
  unfinishedSelect t text h := by
    have hparse : friendListTemplate.parse text = none := by
      by_contra hsome
      obtain ⟨args, hargs⟩ := Option.ne_none_iff_exists'.mp hsome
      rw [friendListTemplate.unfinished_of_parse rfl hargs] at h
      exact absurd h (by decide)
    simp only [Mysql.referenceLists, hparse]
    exact reference_documented.unfinishedSelect t text h
  unfinishedModify := reference_documented.unfinishedModify
  friendListSelect t name hname := by
    have hparse := friendListTemplate.parse_render [name] rfl rfl
      (by simp [hname])
    rw [sql_friendListSelect]
    simp only [Mysql.referenceLists, hparse]

theorem friendList_agrees_alice :
    let t : Tables := ⟨[], [(utf8 "alice", utf8 "bob")], []⟩
    (getFriendList Mysql.referenceLists t (lit "alice") =
          some (friendListHeading :: (t.friendsOf (lit "alice").bytes).map fullNameLine) ↔
        (lit "alice").strlen ≤ 17 ∧
          ∀ d ∈ t.friendsOf (lit "alice").bytes, 0 ∉ d ∧ d.length ≤ 22) ∧
      ∀ (frame : MsgData) (des : CStr), frame.srcNameStr = lit "alice" → Plain des.bytes →
        des.strlen ≤ maxNameLen →
          (checkReciverIsFriend Mysql.referenceLists t frame des = some .success ↔
            des.bytes ∈ t.friendsOf (lit "alice").bytes) :=
  friendList_agrees Mysql.referenceLists_listsFriends _ (by decide) (by decide)

end ChatRoom
