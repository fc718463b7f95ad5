import ChatRoom.Support.SqlLiterals

/-!
# The database

`Mysql` is what the program sees of the MySQL server and its client library: the
outcome of connecting, and the outcome of a query for every statement text.
`Documented` states what MySQL does with the texts that the program builds when
their arguments contain no quote and no backslash, and with texts that break off.
`ReadsLiterals` says it of all texts of the shape of these statements, whose arguments
are read by the rules for string literals.  `reference` is a small interpreter that
behaves so.
-/

namespace ChatRoom

open CString SqlText

structure UserRow where
  username : Bytes
  password : Bytes
  ban : Bytes
deriving DecidableEq

structure MessageRow where
  srcName : Bytes
  desName : Bytes
  words : Bytes
  time : Bytes
deriving DecidableEq

/-- The tables `users`, `friends` and `message`, in the order of insertion; a row
of `friends` is its `srcName` and `desName`. -/
structure Tables where
  users : List UserRow
  friends : List (Bytes × Bytes)
  message : List MessageRow

/-- A row of a result set, column by column. -/
abbrev Row := List Bytes

/-- The client library and the server behind it.  `none` is a nonzero return of
`mysql_query`; the inner `none` of a select is a NULL from `mysql_store_result`.
`queryClosed` is what a query on a closed connection does to the tables, which
the library leaves undefined. -/
structure Mysql where
  connect : Bool
  querySelect : Tables → Bytes → Option (Option (List Row))
  queryModify : Tables → Bytes → Option Tables
  queryClosed : Tables → Bytes → Tables

/-! ## The statements of the program -/

def sql (fmt : String) (args : List Bytes) : Bytes := format (utf8 fmt) args

def friendsSelect : String := "select * from friends where srcName = '%s' and desName = '%s'"
def usersSelect : String := "select * from users where username = '%s'"
def friendsDelete : String := "delete from friends where srcName = '%s' and desName = '%s'"
def messageSelect : String := "select srcName, words, time  from message where desName ='%s'"
def messageDelete : String := "delete from message where desName ='%s'"
def messageInsert : String :=
  "insert into message(srcName,desName,words,time) values('%s','%s','%s','%s')"

/-- The friendship queries on the two names. -/
def friendRows (t : Tables) (src des : Bytes) : List Row :=
  (t.friends.filter (· = (src, des))).map fun r => [r.1, r.2]

def userRows (t : Tables) (name : Bytes) : List Row :=
  (t.users.filter (·.username = name)).map fun r => [r.username, r.password, r.ban]

def messageRows (t : Tables) (des : Bytes) : List Row :=
  (t.message.filter (·.desName = des)).map fun r => [r.srcName, r.words, r.time]

/-- MySQL on the statements of the program. -/
structure Mysql.Documented (m : Mysql) : Prop where
  connected : m.connect = true
  friendsSelect : ∀ t src des, Plain src → Plain des →
    m.querySelect t (sql friendsSelect [src, des]) = some (some (friendRows t src des))
  usersSelect : ∀ t name, Plain name →
    m.querySelect t (sql usersSelect [name]) = some (some (userRows t name))
  messageSelect : ∀ t des, Plain des →
    m.querySelect t (sql messageSelect [des]) = some (some (messageRows t des))
  friendsDelete : ∀ t src des, Plain src → Plain des →
    m.queryModify t (sql friendsDelete [src, des]) =
      some { t with friends := t.friends.filter (· ≠ (src, des)) }
  messageInsert : ∀ t src des words time,
    Plain src → Plain des → Plain words → Plain time →
    m.queryModify t (sql messageInsert [src, des, words, time]) =
      some { t with message := t.message ++ [⟨src, des, words, time⟩] }
  messageDelete : ∀ t des, Plain des →
    m.queryModify t (sql messageDelete [des]) =
      some { t with message := t.message.filter (·.desName ≠ des) }
  unfinishedSelect : ∀ t text, unfinished text = true → m.querySelect t text = none
  unfinishedModify : ∀ t text, unfinished text = true → m.queryModify t text = none

/-! ## The shapes of the statements -/

def friendsSelectTemplate : Template :=
  ⟨utf8 "select * from friends where srcName = ", [utf8 " and desName = ", []]⟩

def usersSelectTemplate : Template :=
  ⟨utf8 "select * from users where username = ", [[]]⟩

def messageSelectTemplate : Template :=
  ⟨utf8 "select srcName, words, time  from message where desName =", [[]]⟩

def friendsDeleteTemplate : Template :=
  ⟨utf8 "delete from friends where srcName = ", [utf8 " and desName = ", []]⟩

def messageDeleteTemplate : Template :=
  ⟨utf8 "delete from message where desName =", [[]]⟩

def messageInsertTemplate : Template :=
  ⟨utf8 "insert into message(srcName,desName,words,time) values(",
    [utf8 ",", utf8 ",", utf8 ",", utf8 ")"]⟩

set_option maxRecDepth 2000 in
theorem sql_friendsSelect (src des : Bytes) :
    sql friendsSelect [src, des] = friendsSelectTemplate.render [src, des] := by
  rfl

theorem sql_usersSelect (name : Bytes) :
    sql usersSelect [name] = usersSelectTemplate.render [name] := by
  rfl

set_option maxRecDepth 2000 in
theorem sql_messageSelect (des : Bytes) :
    sql messageSelect [des] = messageSelectTemplate.render [des] := by
  rfl

set_option maxRecDepth 2000 in
theorem sql_friendsDelete (src des : Bytes) :
    sql friendsDelete [src, des] = friendsDeleteTemplate.render [src, des] := by
  rfl

theorem sql_messageDelete (des : Bytes) :
    sql messageDelete [des] = messageDeleteTemplate.render [des] := by
  rfl

set_option maxRecDepth 2000 in
theorem sql_messageInsert (src des words time : Bytes) :
    sql messageInsert [src, des, words, time] =
      messageInsertTemplate.render [src, des, words, time] := by
  rfl

/-- MySQL on every text that has the shape of a statement of the program: the arguments are
what the literals stand for. -/
structure Mysql.ReadsLiterals (m : Mysql) : Prop where
  connected : m.connect = true
  friendsSelect : ∀ t text src des, friendsSelectTemplate.parse text = some [src, des] →
    m.querySelect t text = some (some (friendRows t src des))
  usersSelect : ∀ t text name, usersSelectTemplate.parse text = some [name] →
    m.querySelect t text = some (some (userRows t name))
  messageSelect : ∀ t text des, messageSelectTemplate.parse text = some [des] →
    m.querySelect t text = some (some (messageRows t des))
  friendsDelete : ∀ t text src des, friendsDeleteTemplate.parse text = some [src, des] →
    m.queryModify t text = some { t with friends := t.friends.filter (· ≠ (src, des)) }
  messageInsert : ∀ t text src des words time,
    messageInsertTemplate.parse text = some [src, des, words, time] →
    m.queryModify t text = some { t with message := t.message ++ [⟨src, des, words, time⟩] }
  messageDelete : ∀ t text des, messageDeleteTemplate.parse text = some [des] →
    m.queryModify t text = some { t with message := t.message.filter (·.desName ≠ des) }
  unfinishedSelect : ∀ t text, unfinished text = true → m.querySelect t text = none
  unfinishedModify : ∀ t text, unfinished text = true → m.queryModify t text = none

/-- Plain arguments stand for themselves. -/
theorem Mysql.ReadsLiterals.documented {m : Mysql} (hm : m.ReadsLiterals) : m.Documented where
  connected := hm.connected
  friendsSelect t src des hsrc hdes := by
    rw [sql_friendsSelect]
    exact hm.friendsSelect t _ src des
      (friendsSelectTemplate.parse_render [src, des] rfl rfl (by simp [hsrc, hdes]))
  usersSelect t name hname := by
    rw [sql_usersSelect]
    exact hm.usersSelect t _ name
      (usersSelectTemplate.parse_render [name] rfl rfl (by simp [hname]))
  messageSelect t des hdes := by
    rw [sql_messageSelect]
    exact hm.messageSelect t _ des
      (messageSelectTemplate.parse_render [des] rfl rfl (by simp [hdes]))
  friendsDelete t src des hsrc hdes := by
    rw [sql_friendsDelete]
    exact hm.friendsDelete t _ src des
      (friendsDeleteTemplate.parse_render [src, des] rfl rfl (by simp [hsrc, hdes]))
  messageInsert t src des words time hsrc hdes hwords htime := by
    rw [sql_messageInsert]
    exact hm.messageInsert t _ src des words time
      (messageInsertTemplate.parse_render [src, des, words, time] rfl rfl
        (by simp [hsrc, hdes, hwords, htime]))
  messageDelete t des hdes := by
    rw [sql_messageDelete]
    exact hm.messageDelete t _ des
      (messageDeleteTemplate.parse_render [des] rfl rfl (by simp [hdes]))
  unfinishedSelect := hm.unfinishedSelect
  unfinishedModify := hm.unfinishedModify

/-- An `insert` that is cut behind its opening parenthesis is incomplete. -/
theorem unfinished_take_messageInsert {src des words time : Bytes} (hsrc : Plain src)
    (hdes : Plain des) (hwords : Plain words) (htime : Plain time) {k : ℕ} (hk : 55 ≤ k)
    (hlen : k < (messageInsertTemplate.render [src, des, words, time]).length) :
    unfinished ((messageInsertTemplate.render [src, des, words, time]).take k) = true := by
  let head : Bytes := utf8 "insert into message(srcName,desName,words,time) values("
  let values : Bytes := 39 :: (src ++ 39 :: 44 :: 39 :: (des ++ 39 :: 44 :: 39 :: (words ++
    39 :: 44 :: 39 :: (time ++ 39 :: [41]))))
  have hhead : head.length = 55 := rfl
  have htext : messageInsertTemplate.render [src, des, words, time] = head ++ values := rfl
  have hopen : StaysOpen 1 values :=
    (((((((staysOpen_singleton 1 41).quoted htime).cons rfl).quoted hwords).cons rfl).quoted
      hdes).cons rfl).quoted hsrc
  rw [htext] at hlen ⊢
  exact unfinished_take rfl hopen (hhead.le.trans hk) hlen

/-! ## A reference interpreter -/

/-- The interpreter: it reads the arguments of the statement, runs it, and rejects
everything else. -/
def Mysql.reference : Mysql where
  connect := true
  querySelect t text :=
    if unfinished text then none
    else
      match friendsSelectTemplate.parse text, usersSelectTemplate.parse text,
        messageSelectTemplate.parse text with
      | some [src, des], _, _ => some (some (friendRows t src des))
      | _, some [name], _ => some (some (userRows t name))
      | _, _, some [des] => some (some (messageRows t des))
      | _, _, _ => none
  queryModify t text :=
    if unfinished text then none
    else
      match friendsDeleteTemplate.parse text, messageDeleteTemplate.parse text,
        messageInsertTemplate.parse text with
      | some [src, des], _, _ =>
          some { t with friends := t.friends.filter (· ≠ (src, des)) }
      | _, some [des], _ =>
          some { t with message := t.message.filter (·.desName ≠ des) }
      | _, _, some [src, des, words, time] =>
          some { t with message := t.message ++ [⟨src, des, words, time⟩] }
      | _, _, _ => none
  queryClosed t _ := t

theorem Mysql.reference_readsLiterals : Mysql.reference.ReadsLiterals where
  connected := rfl
  friendsSelect t text src des h := by
    have hclosed := friendsSelectTemplate.unfinished_of_parse rfl h
    simp [Mysql.reference, hclosed, h]
  usersSelect t text name h := by
    have hclosed := usersSelectTemplate.unfinished_of_parse rfl h
    have hother := usersSelectTemplate.parse_eq_none friendsSelectTemplate (by decide) h
    simp [Mysql.reference, hclosed, h, hother]
  messageSelect t text des h := by
    have hclosed := messageSelectTemplate.unfinished_of_parse rfl h
    have hfriends := messageSelectTemplate.parse_eq_none friendsSelectTemplate (by decide) h
    have husers := messageSelectTemplate.parse_eq_none usersSelectTemplate (by decide) h
    simp [Mysql.reference, hclosed, h, hfriends, husers]
  friendsDelete t text src des h := by
    have hclosed := friendsDeleteTemplate.unfinished_of_parse rfl h
    simp [Mysql.reference, hclosed, h]
  messageInsert t text src des words time h := by
    have hclosed := messageInsertTemplate.unfinished_of_parse rfl h
    have hfriends := messageInsertTemplate.parse_eq_none friendsDeleteTemplate (by decide) h
    have hmessage := messageInsertTemplate.parse_eq_none messageDeleteTemplate (by decide) h
    simp [Mysql.reference, hclosed, h, hfriends, hmessage]
  messageDelete t text des h := by
    have hclosed := messageDeleteTemplate.unfinished_of_parse rfl h
    have hother := messageDeleteTemplate.parse_eq_none friendsDeleteTemplate (by decide) h
    simp [Mysql.reference, hclosed, h, hother]
  unfinishedSelect t text h := by simp [Mysql.reference, h]
  unfinishedModify t text h := by simp [Mysql.reference, h]

theorem Mysql.reference_documented : Mysql.reference.Documented :=
  reference_readsLiterals.documented

end ChatRoom
