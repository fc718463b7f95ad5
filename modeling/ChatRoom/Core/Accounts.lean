import ChatRoom.Core.MysqlClient

/-!
# The statements on accounts

`mysql.c` registers a user with an insert and checks a login against a listing of all users.
`Mysql.KeepsAccounts` says what MySQL does with these two statements.
`Mysql.ChangesNamedTable` says less of more texts: a statement that starts like one of the
program's changes nothing outside of the table that it names, whatever was put between its quotes.
-/

namespace ChatRoom

open CString SqlText

def usersInsert : String := "insert into users(username,password,ban) values('%s','%s','%d')"
def accountsSelect : String := "select username,password from users"

/-- The listing that a login goes through. -/
def accountRows (t : Tables) : List Row := t.users.map fun r => [r.username, r.password]

/-- A row of `users` without its ban. -/
def UserRow.account (r : UserRow) : Bytes × Bytes := (r.username, r.password)

def usersInsertTemplate : Template :=
  ⟨utf8 "insert into users(username,password,ban) values(", [utf8 ",", utf8 ",", utf8 ")"]⟩

set_option maxRecDepth 2000 in
theorem sql_usersInsert (name pwd ban : Bytes) :
    sql usersInsert [name, pwd, ban] = usersInsertTemplate.render [name, pwd, ban] := by
  rfl

theorem length_usersInsert (name pwd ban : Bytes) :
    (sql usersInsert [name, pwd, ban]).length = 57 + name.length + pwd.length + ban.length := by
  have hfixed : usersInsertTemplate.fixedLength = 51 := rfl
  rw [sql_usersInsert, usersInsertTemplate.length_render [name, pwd, ban] rfl, hfixed]
  simp
  omega

/-- MySQL on the statements on accounts.  The user name is a key of its table. -/
structure Mysql.KeepsAccounts (m : Mysql) : Prop extends m.ReadsClientLiterals where
  usersInsert : ∀ t text name pwd ban, usersInsertTemplate.parse text = some [name, pwd, ban] →
    m.queryModify t text =
      if name ∈ t.users.map UserRow.username then none
      else some { t with users := t.users ++ [⟨name, pwd, ban⟩] }
  accountsSelect : ∀ t, m.querySelect t (utf8 accountsSelect) = some (some (accountRows t))

/-- A legible insert is rejected, or it stores what its literals stand for under a new name. -/
theorem Mysql.KeepsAccounts.insert_cases {m : Mysql} (hm : m.KeepsAccounts) (t : Tables)
    {text : Bytes} (hlegible : usersInsertTemplate.Legible text) :
    m.queryModify t text = none ∨
      ∃ name pwd ban, usersInsertTemplate.parse text = some [name, pwd, ban] ∧
        name ∉ t.users.map UserRow.username ∧
        m.queryModify t text = some { t with users := t.users ++ [⟨name, pwd, ban⟩] } := by
  rcases hlegible with hcut | hparse
  · exact .inl (hm.unfinishedModify t text hcut)
  · obtain ⟨args, hargs⟩ := Option.isSome_iff_exists.mp hparse
    obtain ⟨name, pwd, ban, rfl⟩ :=
      List.length_eq_three.mp (usersInsertTemplate.length_of_parse hargs)
    have hquery := hm.usersInsert t text name pwd ban hargs
    by_cases htaken : name ∈ t.users.map UserRow.username
    · exact .inl (hquery.trans (if_pos htaken))
    · exact .inr ⟨name, pwd, ban, hargs, htaken, hquery.trans (if_neg htaken)⟩

/-- The statement of `banOne` up to the name. -/
def banClause (flag : Bool) : Bytes :=
  banUpdateTemplate.head ++
    39 :: ((if flag then utf8 "1" else utf8 "0") ++ 39 :: utf8 " where username = ")

/-- What a statement can change is fixed by how it starts. -/
structure Mysql.ChangesNamedTable (m : Mysql) : Prop where
  friendsInsert : ∀ t text t', friendsInsertTemplate.head <+: text →
    m.queryModify t text = some t' → t'.users = t.users
  friendsDelete : ∀ t text t', friendsDeleteTemplate.head <+: text →
    m.queryModify t text = some t' → t'.users = t.users
  messageInsert : ∀ t text t', messageInsertTemplate.head <+: text →
    m.queryModify t text = some t' → t'.users = t.users
  messageDelete : ∀ t text t', messageDeleteTemplate.head <+: text →
    m.queryModify t text = some t' → t'.users = t.users
  banUpdate : ∀ flag t text t', banClause flag <+: text →
    m.queryModify t text = some t' → t'.users.map UserRow.account = t.users.map UserRow.account
  -- whatever a closed connection does, it does not run another statement
  queryClosed : ∀ t text, messageDeleteTemplate.head <+: text →
    (m.queryClosed t text).users = t.users

theorem account_setBan (users : List UserRow) (flag name : Bytes) :
    (setBan users flag name).map UserRow.account = users.map UserRow.account := by
  rw [setBan, List.map_map]
  refine List.map_congr_left fun r _ => ?_
  rw [Function.comp_apply]
  split_ifs <;> rfl

/-- A text that starts like one template does not follow another. -/
theorem parse_eq_none_of_head {t t' : Template} {text : Bytes} (hstarts : t.head <+: text)
    (hheads : ¬ t.head <+: t'.head ∧ ¬ t'.head <+: t.head) : t'.parse text = none := by
  by_contra hparse
  obtain ⟨args, hargs⟩ := Option.ne_none_iff_exists'.mp hparse
  rcases List.prefix_or_prefix_of_prefix hstarts (prefix_of_parseFrom hargs) with h | h
  · exact hheads.1 h
  · exact hheads.2 h

/-! ## A reference interpreter -/

/-- The interpreter of both programs' other statements, with those on accounts added. -/
def Mysql.referenceAccounts : Mysql where
  connect := true
  querySelect t text :=
    if text = utf8 accountsSelect then some (some (accountRows t))
    else Mysql.referenceClient.querySelect t text
  queryModify t text :=
    match usersInsertTemplate.parse text with
    | some [name, pwd, ban] =>
        if name ∈ t.users.map UserRow.username then none
        else some { t with users := t.users ++ [⟨name, pwd, ban⟩] }
    | _ => Mysql.referenceClient.queryModify t text
  queryClosed t _ := t

/-- A select that is not the listing is passed on. -/
theorem querySelect_referenceAccounts {text : Bytes} {t : Tables} {other : Template}
    {args : List Bytes} (hother : ¬ other.head <+: utf8 accountsSelect)
    (h : other.parse text = some args) :
    Mysql.referenceAccounts.querySelect t text = Mysql.referenceClient.querySelect t text := by
  have hne : text ≠ utf8 accountsSelect := fun heq => hother (heq ▸ prefix_of_parseFrom h)
  exact if_neg hne

/-- A statement that is not the insert is passed on. -/
theorem queryModify_referenceAccounts {text : Bytes} {t : Tables} {head : Template}
    (hstarts : head.head <+: text)
    (hheads : ¬ head.head <+: usersInsertTemplate.head ∧ ¬ usersInsertTemplate.head <+: head.head) :
    Mysql.referenceAccounts.queryModify t text = Mysql.referenceClient.queryModify t text := by
  simp only [Mysql.referenceAccounts, parse_eq_none_of_head hstarts hheads]

theorem Mysql.referenceAccounts_keepsAccounts : Mysql.referenceAccounts.KeepsAccounts where
  connected := rfl
  friendsSelect t text src des h := by
    rw [querySelect_referenceAccounts (by decide) h]
    exact referenceClient_readsClientLiterals.friendsSelect t text src des h
  usersSelect t text name h := by
    rw [querySelect_referenceAccounts (by decide) h]
    exact referenceClient_readsClientLiterals.usersSelect t text name h
  messageSelect t text des h := by
    rw [querySelect_referenceAccounts (by decide) h]
    exact referenceClient_readsClientLiterals.messageSelect t text des h
  isBanSelect t text name h := by
    rw [querySelect_referenceAccounts (by decide) h]
    exact referenceClient_readsClientLiterals.isBanSelect t text name h
  friendsDelete t text src des h := by
    rw [queryModify_referenceAccounts (prefix_of_parseFrom h) (by decide)]
    exact referenceClient_readsClientLiterals.friendsDelete t text src des h
  messageInsert t text src des words time h := by
    rw [queryModify_referenceAccounts (prefix_of_parseFrom h) (by decide)]
    exact referenceClient_readsClientLiterals.messageInsert t text src des words time h
  messageDelete t text des h := by
    rw [queryModify_referenceAccounts (prefix_of_parseFrom h) (by decide)]
    exact referenceClient_readsClientLiterals.messageDelete t text des h
  friendsInsert t text src des h hnew := by
    rw [queryModify_referenceAccounts (prefix_of_parseFrom h) (by decide)]
    exact referenceClient_readsClientLiterals.friendsInsert t text src des h hnew
  banUpdate t text flag name h := by
    rw [queryModify_referenceAccounts (prefix_of_parseFrom h) (by decide)]
    exact referenceClient_readsClientLiterals.banUpdate t text flag name h
  unfinishedSelect t text h := by
    have hne : text ≠ utf8 accountsSelect := by
      rintro rfl
      exact absurd h (by decide)
    simp only [Mysql.referenceAccounts, if_neg hne]
    exact referenceClient_readsClientLiterals.unfinishedSelect t text h
  unfinishedModify t text h := by
    have hparse : usersInsertTemplate.parse text = none := by
      by_contra hsome
      obtain ⟨args, hargs⟩ := Option.ne_none_iff_exists'.mp hsome
      rw [usersInsertTemplate.unfinished_of_parse rfl hargs] at h
      exact absurd h (by decide)
    simp only [Mysql.referenceAccounts, hparse]
    exact referenceClient_readsClientLiterals.unfinishedModify t text h
  usersInsert t text name pwd ban h := by
    simp only [Mysql.referenceAccounts, h]
  accountsSelect t := by
    simp only [Mysql.referenceAccounts, if_true]

/-- What the reference interpreter does with a statement is one of the things that it knows. -/
theorem users_queryModify_reference {t t' : Tables} {text : Bytes}
    (h : Mysql.reference.queryModify t text = some t') : t'.users = t.users := by
  simp only [Mysql.reference] at h
  split_ifs at h
  split at h
  · exact Option.some.inj h ▸ rfl
  · exact Option.some.inj h ▸ rfl
  · exact Option.some.inj h ▸ rfl
  · exact absurd h (by simp)

theorem users_queryModify_referenceClient {t t' : Tables} {text : Bytes}
    (hban : banUpdateTemplate.parse text = none)
    (h : Mysql.referenceClient.queryModify t text = some t') : t'.users = t.users := by
  simp only [Mysql.referenceClient, hban] at h
  split_ifs at h
  split at h
  · exact Option.some.inj h ▸ rfl
  · rename_i hupdate _
    exact absurd hupdate (by simp)
  · exact users_queryModify_reference h

theorem accounts_queryModify_referenceClient {t t' : Tables} {text : Bytes}
    (h : Mysql.referenceClient.queryModify t text = some t') :
    t'.users.map UserRow.account = t.users.map UserRow.account := by
  simp only [Mysql.referenceClient] at h
  split_ifs at h
  split at h
  · exact Option.some.inj h ▸ rfl
  · exact Option.some.inj h ▸ account_setBan t.users _ _
  · exact congrArg (List.map UserRow.account) (users_queryModify_reference h)

theorem Mysql.referenceAccounts_changesNamedTable : Mysql.referenceAccounts.ChangesNamedTable where
  friendsInsert t text t' hstarts h := by
    rw [queryModify_referenceAccounts hstarts (by decide)] at h
    exact users_queryModify_referenceClient (parse_eq_none_of_head hstarts (by decide)) h
  friendsDelete t text t' hstarts h := by
    rw [queryModify_referenceAccounts hstarts (by decide)] at h
    exact users_queryModify_referenceClient (parse_eq_none_of_head hstarts (by decide)) h
  messageInsert t text t' hstarts h := by
    rw [queryModify_referenceAccounts hstarts (by decide)] at h
    exact users_queryModify_referenceClient (parse_eq_none_of_head hstarts (by decide)) h
  messageDelete t text t' hstarts h := by
    rw [queryModify_referenceAccounts hstarts (by decide)] at h
    exact users_queryModify_referenceClient (parse_eq_none_of_head hstarts (by decide)) h
  banUpdate flag t text t' hstarts h := by
    have hhead : banUpdateTemplate.head <+: text := (List.prefix_append _ _).trans hstarts
    rw [queryModify_referenceAccounts hhead (by decide)] at h
    exact accounts_queryModify_referenceClient h
  queryClosed _ _ _ := rfl

end ChatRoom
