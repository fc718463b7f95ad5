import ChatRoom.Core.Mysql

/-!
# The statements of the client

The client talks to the database too: it stores friendships, and reads and sets the ban
of a user.  `Mysql.DocumentedClient` and `Mysql.ReadsClientLiterals` add these statements to
what `Mysql.Documented` and `Mysql.ReadsLiterals` say about those of the server.
-/

namespace ChatRoom

open CString SqlText

def friendsInsert : String := "insert into friends(srcName,desName) values('%s','%s')"
def isBanSelect : String := "select username,ban from users where username = '%s'"
def banUpdate : String := "update users set ban = '%d' where username = '%s'"

/-- The rows of the ban query. -/
def banRows (t : Tables) (name : Bytes) : List Row :=
  (t.users.filter (·.username = name)).map fun r => [r.username, r.ban]

/-- The users table after `ban` was set for one name. -/
def setBan (users : List UserRow) (flag name : Bytes) : List UserRow :=
  users.map fun r => if r.username = name then { r with ban := flag } else r

/-- MySQL on the statements of both programs.  Nothing is said about the insert of a row
that is already there, which depends on the keys of the table. -/
structure Mysql.DocumentedClient (m : Mysql) : Prop extends m.Documented where
  friendsInsert : ∀ t src des, Plain src → Plain des → (src, des) ∉ t.friends →
    m.queryModify t (sql friendsInsert [src, des]) =
      some { t with friends := t.friends ++ [(src, des)] }
  isBanSelect : ∀ t name, Plain name →
    m.querySelect t (sql isBanSelect [name]) = some (some (banRows t name))
  banUpdate : ∀ t flag name, Plain flag → Plain name →
    m.queryModify t (sql banUpdate [flag, name]) =
      some { t with users := setBan t.users flag name }

/-! ## The shapes of the statements -/

def friendsInsertTemplate : Template :=
  ⟨utf8 "insert into friends(srcName,desName) values(", [utf8 ",", utf8 ")"]⟩

def isBanSelectTemplate : Template :=
  ⟨utf8 "select username,ban from users where username = ", [[]]⟩

def banUpdateTemplate : Template :=
  ⟨utf8 "update users set ban = ", [utf8 " where username = ", []]⟩

set_option maxRecDepth 2000 in
theorem sql_friendsInsert (src des : Bytes) :
    sql friendsInsert [src, des] = friendsInsertTemplate.render [src, des] := by
  rfl

set_option maxRecDepth 2000 in
theorem sql_isBanSelect (name : Bytes) :
    sql isBanSelect [name] = isBanSelectTemplate.render [name] := by
  rfl

set_option maxRecDepth 2000 in
theorem sql_banUpdate (flag name : Bytes) :
    sql banUpdate [flag, name] = banUpdateTemplate.render [flag, name] := by
  rfl

theorem length_friendsInsert (src des : Bytes) :
    (sql friendsInsert [src, des]).length = 50 + src.length + des.length := by
  have hfixed : friendsInsertTemplate.fixedLength = 46 := rfl
  rw [sql_friendsInsert, friendsInsertTemplate.length_render [src, des] rfl, hfixed]
  simp
  omega

theorem length_isBanSelect (name : Bytes) :
    (sql isBanSelect [name]).length = 50 + name.length := by
  have hfixed : isBanSelectTemplate.fixedLength = 48 := rfl
  rw [sql_isBanSelect, isBanSelectTemplate.length_render [name] rfl, hfixed]
  simp
  omega

theorem length_banUpdate (flag name : Bytes) :
    (sql banUpdate [flag, name]).length = 45 + flag.length + name.length := by
  have hfixed : banUpdateTemplate.fixedLength = 41 := rfl
  rw [sql_banUpdate, banUpdateTemplate.length_render [flag, name] rfl, hfixed]
  simp
  omega

/-- An `insert` of a friendship that is cut behind its opening parenthesis is
incomplete. -/
theorem unfinished_take_friendsInsert {src des : Bytes} (hsrc : Plain src) (hdes : Plain des)
    {k : ℕ} (hk : 44 ≤ k)
    (hlen : k < (friendsInsertTemplate.render [src, des]).length) :
    unfinished ((friendsInsertTemplate.render [src, des]).take k) = true := by
  let head : Bytes := utf8 "insert into friends(srcName,desName) values("
  let values : Bytes := 39 :: (src ++ 39 :: 44 :: 39 :: (des ++ 39 :: [41]))
  have hhead : head.length = 44 := rfl
  have htext : friendsInsertTemplate.render [src, des] = head ++ values := rfl
  have hopen : StaysOpen 1 values :=
    (((staysOpen_singleton 1 41).quoted hdes).cons rfl).quoted hsrc
  rw [htext] at hlen ⊢
  exact unfinished_take rfl hopen (hhead.le.trans hk) hlen

/-- MySQL on every text that has the shape of a statement of one of the two programs. -/
structure Mysql.ReadsClientLiterals (m : Mysql) : Prop extends m.ReadsLiterals where
  friendsInsert : ∀ t text src des, friendsInsertTemplate.parse text = some [src, des] →
    (src, des) ∉ t.friends →
    m.queryModify t text = some { t with friends := t.friends ++ [(src, des)] }
  isBanSelect : ∀ t text name, isBanSelectTemplate.parse text = some [name] →
    m.querySelect t text = some (some (banRows t name))
  banUpdate : ∀ t text flag name, banUpdateTemplate.parse text = some [flag, name] →
    m.queryModify t text = some { t with users := setBan t.users flag name }

/-- Plain arguments stand for themselves. -/
theorem Mysql.ReadsClientLiterals.documentedClient {m : Mysql} (hm : m.ReadsClientLiterals) :
    m.DocumentedClient where
  toDocumented := hm.toReadsLiterals.documented
  friendsInsert t src des hsrc hdes hnew := by
    rw [sql_friendsInsert]
    exact hm.friendsInsert t _ src des
      (friendsInsertTemplate.parse_render [src, des] rfl rfl (by simp [hsrc, hdes])) hnew
  isBanSelect t name hname := by
    rw [sql_isBanSelect]
    exact hm.isBanSelect t _ name
      (isBanSelectTemplate.parse_render [name] rfl rfl (by simp [hname]))
  banUpdate t flag name hflag hname := by
    rw [sql_banUpdate]
    exact hm.banUpdate t _ flag name
      (banUpdateTemplate.parse_render [flag, name] rfl rfl (by simp [hflag, hname]))

/-! ## A reference interpreter -/

/-- The interpreter of the server's statements, with those of the client added. -/
def Mysql.referenceClient : Mysql where
  connect := true
  querySelect t text :=
    if unfinished text then none
    else
      match isBanSelectTemplate.parse text with
      | some [name] => some (some (banRows t name))
      | _ => Mysql.reference.querySelect t text
  queryModify t text :=
    if unfinished text then none
    else
      match friendsInsertTemplate.parse text, banUpdateTemplate.parse text with
      | some [src, des], _ => some { t with friends := t.friends ++ [(src, des)] }
      | _, some [flag, name] => some { t with users := setBan t.users flag name }
      | _, _ => Mysql.reference.queryModify t text
  queryClosed t _ := t

/-- A select of the server is passed on. -/
theorem querySelect_referenceClient {text : Bytes} {t : Tables}
    (h : isBanSelectTemplate.parse text = none) :
    Mysql.referenceClient.querySelect t text = Mysql.reference.querySelect t text := by
  by_cases hcut : unfinished text = true
  · simp [Mysql.referenceClient, Mysql.reference, hcut]
  · simp [Mysql.referenceClient, hcut, h]

/-- A modifying statement of the server is passed on. -/
theorem queryModify_referenceClient {text : Bytes} {t : Tables}
    (hinsert : friendsInsertTemplate.parse text = none)
    (hupdate : banUpdateTemplate.parse text = none) :
    Mysql.referenceClient.queryModify t text = Mysql.reference.queryModify t text := by
  by_cases hcut : unfinished text = true
  · simp [Mysql.referenceClient, Mysql.reference, hcut]
  · simp [Mysql.referenceClient, hcut, hinsert, hupdate]

theorem Mysql.referenceClient_readsClientLiterals :
    Mysql.referenceClient.ReadsClientLiterals where
  connected := rfl
  friendsSelect t text src des h := by
    rw [querySelect_referenceClient
      (friendsSelectTemplate.parse_eq_none isBanSelectTemplate (by decide) h)]
    exact reference_readsLiterals.friendsSelect t text src des h
  usersSelect t text name h := by
    rw [querySelect_referenceClient
      (usersSelectTemplate.parse_eq_none isBanSelectTemplate (by decide) h)]
    exact reference_readsLiterals.usersSelect t text name h
  messageSelect t text des h := by
    rw [querySelect_referenceClient
      (messageSelectTemplate.parse_eq_none isBanSelectTemplate (by decide) h)]
    exact reference_readsLiterals.messageSelect t text des h
  friendsDelete t text src des h := by
    rw [queryModify_referenceClient
      (friendsDeleteTemplate.parse_eq_none friendsInsertTemplate (by decide) h)
      (friendsDeleteTemplate.parse_eq_none banUpdateTemplate (by decide) h)]
    exact reference_readsLiterals.friendsDelete t text src des h
  messageInsert t text src des words time h := by
    rw [queryModify_referenceClient
      (messageInsertTemplate.parse_eq_none friendsInsertTemplate (by decide) h)
      (messageInsertTemplate.parse_eq_none banUpdateTemplate (by decide) h)]
    exact reference_readsLiterals.messageInsert t text src des words time h
  messageDelete t text des h := by
    rw [queryModify_referenceClient
      (messageDeleteTemplate.parse_eq_none friendsInsertTemplate (by decide) h)
      (messageDeleteTemplate.parse_eq_none banUpdateTemplate (by decide) h)]
    exact reference_readsLiterals.messageDelete t text des h
  friendsInsert t text src des h _ := by
    have hclosed := friendsInsertTemplate.unfinished_of_parse rfl h
    simp [Mysql.referenceClient, hclosed, h]
  isBanSelect t text name h := by
    have hclosed := isBanSelectTemplate.unfinished_of_parse rfl h
    simp [Mysql.referenceClient, hclosed, h]
  banUpdate t text flag name h := by
    have hclosed := banUpdateTemplate.unfinished_of_parse rfl h
    have hother := banUpdateTemplate.parse_eq_none friendsInsertTemplate (by decide) h
    simp [Mysql.referenceClient, hclosed, h, hother]
  unfinishedSelect t text h := by simp [Mysql.referenceClient, h]
  unfinishedModify t text h := by simp [Mysql.referenceClient, h]

theorem Mysql.referenceClient_documented : Mysql.referenceClient.DocumentedClient :=
  referenceClient_readsClientLiterals.documentedClient

end ChatRoom
