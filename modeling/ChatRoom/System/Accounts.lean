import ChatRoom.Client.AddFriend
import ChatRoom.Client.Mailbox
import ChatRoom.Client.Registration
import ChatRoom.Server.HandOver
import ChatRoom.Server.Segments
import ChatRoom.System.NameQueries
import Mathlib.Data.List.Nodup

/-!
# Accounts over whole runs

Both programs change the tables with six statements, each built from texts that users have chosen.
Their runs, in any order, are the runs of the database.  An account that is in the table stays
there with its password, whatever the names and messages in the other statements contain, as long
as the literals of the registrations are closed where they were meant to be.
-/

namespace ChatRoom

open CString SqlText StepSystem

/-! ## The statements of both programs -/

/-- A statement that changes the tables, with the texts that are put into it. -/
inductive Statement where
  | register (username pwd : CStr)
  | ban (flag : Bool) (username : CStr)
  | befriend (src des : CStr)
  | unfriend (src des : CStr)
  | keepMessage (src des words time : Bytes)
  | emptyMailbox (name : CStr)
  /-- On the connection that was closed when the listing of the mailbox had failed. -/
  | emptyMailboxClosed (name : CStr)

def Statement.text : Statement → Bytes
  | register username pwd => registerText username pwd
  | ban flag username => banText flag username
  | befriend src des => snprintf 64 (sql friendsInsert [src.bytes, des.bytes])
  | unfriend src des => deleteText src des
  | keepMessage src des words time => snprintf 128 (sql messageInsert [src, des, words, time])
  | emptyMailbox name => snprintf 128 (sql messageDelete [name.bytes])
  | emptyMailboxClosed name => snprintf 128 (sql messageDelete [name.bytes])

/-- A statement that is rejected changes nothing. -/
def perform (m : Mysql) (t : Tables) : Statement → Tables
  | .emptyMailboxClosed name => m.queryClosed t (Statement.emptyMailboxClosed name).text
  | s => (m.queryModify t s.text).getD t

def performAll (m : Mysql) (t : Tables) (ss : List Statement) : Tables := ss.foldl (perform m) t

/-- The name and the password that a registration stores. -/
def Statement.stores : Statement → Option (Bytes × Bytes)
  | register username pwd =>
      match usersInsertTemplate.parse (registerText username pwd) with
      | some [name, pwd, _] => some (name, pwd)
      | _ => none
  | _ => none

/-- A registration does not end its literals and go on with a statement of another shape.  Nothing
is asked of the other statements. -/
def Statement.Legible : Statement → Prop
  | register username pwd => usersInsertTemplate.Legible (registerText username pwd)
  | _ => True

/-! The functions of the two programs are made of these statements. -/

section
variable {m : Mysql} (hconnect : m.connect = true) (t : Tables)
include hconnect

theorem banOne_eq (flag : Bool) (username : CStr) :
    banOne m t flag username = perform m t (.ban flag username) := by
  rw [banOne, if_pos hconnect]
  rfl

theorem insertFriend2Mysql_eq (src des : CStr) :
    insertFriend2Mysql m t src des =
      some (performAll m t [.befriend src des, .befriend des src]) := by
  rw [insertFriend2Mysql, if_pos hconnect]
  rfl

theorem deleteFriendFromMysql_eq (pstData : MsgData) (des : CStr) :
    deleteFriendFromMysql m t pstData des =
      some (performAll m t
        [.unfriend pstData.srcNameStr des, .unfriend des pstData.srcNameStr]) := by
  rw [deleteFriendFromMysql, if_pos hconnect]
  rfl

theorem insertUserMsg2Mysql_eq (now : Clock) (pstData : MsgData) (des : CStr) :
    insertUserMsg2Mysql m t now pstData des =
      some (perform m t (.keepMessage pstData.srcNameStr.bytes des.bytes pstData.pDataStr.bytes
        (getMsgTime now))) := by
  rw [insertUserMsg2Mysql, if_pos hconnect]
  rfl

theorem tables_getUserMsgFromMysql {name : CStr} {result : MailboxResult}
    (h : getUserMsgFromMysql m t name = some result) :
    result.tables = perform m t (.emptyMailbox name) ∨
      result.tables = perform m t (.emptyMailboxClosed name) := by
  rw [getUserMsgFromMysql, if_pos hconnect] at h
  split at h
  · exact .inr (Option.some.inj h ▸ rfl)
  · exact .inl (Option.some.inj h ▸ rfl)
  · exact .inl (Option.some.inj h ▸ rfl)

end

/-! ## One statement -/

/-- The beginning of a statement is not cut. -/
theorem prefix_snprintf {head text : Bytes} {n : ℕ} (h : head <+: text) (hn : head.length < n) :
    head <+: snprintf n text :=
  List.prefix_take_iff.mpr ⟨h, by omega⟩

theorem head_prefix_render (template : Template) (args : List Bytes) :
    template.head <+: template.render args := by
  cases htail : template.tail with
  | nil => simp [Template.render, htail, renderFrom]
  | cons q qs =>
      cases args with
      | nil => simp [Template.render, htail, renderFrom]
      | cons a as => simp [Template.render, htail, renderFrom]

theorem banClause_starts (flag : Bool) (username : CStr) :
    banClause flag <+: banText flag username := by
  rw [banText, sql_banUpdate]
  refine prefix_snprintf ⟨39 :: (username.bytes ++ [39]), ?_⟩ (by cases flag <;> decide)
  simp [banClause, Template.render, renderFrom, banUpdateTemplate]

section
variable {m : Mysql} (hm : m.KeepsAccounts) (hchanges : m.ChangesNamedTable)

theorem stores_of_parse {username pwd : CStr} {name pwd' ban : Bytes}
    (h : usersInsertTemplate.parse (registerText username pwd) = some [name, pwd', ban]) :
    (Statement.register username pwd).stores = some (name, pwd') := by
  simp only [Statement.stores, h]

theorem accounts_getD {t : Tables} {result : Option Tables}
    (hsome : ∀ t', result = some t' →
      t'.users.map UserRow.account = t.users.map UserRow.account) :
    (result.getD t).users.map UserRow.account = t.users.map UserRow.account := by
  cases result with
  | none => rfl
  | some t' => exact hsome t' rfl

include hm hchanges

/-- A statement leaves the accounts, or it is a registration that adds one under a new name. -/
theorem perform_cases (t : Tables) {s : Statement} (hs : s.Legible) :
    (perform m t s).users.map UserRow.account = t.users.map UserRow.account ∨
      ∃ row : UserRow, s.stores = some row.account ∧
        row.username ∉ t.users.map UserRow.username ∧
        (perform m t s).users = t.users ++ [row] := by
  cases s with
  | register username pwd =>
      rcases hm.insert_cases t hs with hnone | ⟨name, pwd', ban, hparse, hfree, hquery⟩
      · left
        simp [perform, Statement.text, hnone]
      · refine .inr ⟨⟨name, pwd', ban⟩, stores_of_parse hparse, hfree, ?_⟩
        simp [perform, Statement.text, hquery]
  | ban flag username =>
      left
      refine accounts_getD fun t' h => ?_
      exact hchanges.banUpdate flag t _ t' (banClause_starts flag username) h
  | befriend src des =>
      left
      refine accounts_getD fun t' h => ?_
      rw [hchanges.friendsInsert t _ t' (prefix_snprintf ?_ (by decide)) h]
      rw [sql_friendsInsert]
      exact head_prefix_render _ _
  | unfriend src des =>
      left
      refine accounts_getD fun t' h => ?_
      rw [hchanges.friendsDelete t _ t' (prefix_snprintf ?_ (by decide)) h]
      rw [sql_friendsDelete]
      exact head_prefix_render _ _
  | keepMessage src des words time =>
      left
      refine accounts_getD fun t' h => ?_
      rw [hchanges.messageInsert t _ t' (prefix_snprintf ?_ (by decide)) h]
      rw [sql_messageInsert]
      exact head_prefix_render _ _
  | emptyMailbox name =>
      left
      refine accounts_getD fun t' h => ?_
      rw [hchanges.messageDelete t _ t' (prefix_snprintf ?_ (by decide)) h]
      rw [sql_messageDelete]
      exact head_prefix_render _ _
  | emptyMailboxClosed name =>
      left
      rw [perform, Statement.text, hchanges.queryClosed t _ (prefix_snprintf ?_ (by decide))]
      rw [sql_messageDelete]
      exact head_prefix_render _ _

/-! ## Runs -/

/-- After any statements the accounts are the old ones and some of those that the registrations
have stored, under different names. -/
theorem accounts_run {ss : List Statement} (hss : ∀ s ∈ ss, s.Legible) {t : Tables}
    (hkeys : (t.users.map UserRow.username).Nodup) :
    ∃ added : List (Bytes × Bytes),
      (performAll m t ss).users.map UserRow.account = t.users.map UserRow.account ++ added ∧
        added.Sublist (ss.filterMap Statement.stores) ∧
        ((performAll m t ss).users.map UserRow.username).Nodup := by
  induction ss generalizing t with
  | nil => exact ⟨[], (List.append_nil _).symm, List.Sublist.slnil, hkeys⟩
  | cons s ss ih =>
      obtain ⟨hs, htail⟩ := List.forall_mem_cons.mp hss
      have hnames : ∀ users : List UserRow,
          users.map UserRow.username = (users.map UserRow.account).map Prod.fst := fun users => by
        rw [List.map_map]
        rfl
      rcases perform_cases hm hchanges t hs with hsame | ⟨row, hstores, hfree, hadds⟩
      · have hkeys' : ((perform m t s).users.map UserRow.username).Nodup := by
          rw [hnames, hsame, ← hnames]
          exact hkeys
        obtain ⟨added, haccounts, hsub, hnodup⟩ := ih htail hkeys'
        refine ⟨added, by rw [← hsame, ← haccounts]; rfl, ?_, hnodup⟩
        exact hsub.trans ((List.sublist_cons_self s ss).filterMap _)
      · have hkeys' : ((perform m t s).users.map UserRow.username).Nodup := by
          rw [hadds, List.map_append, List.nodup_append]
          refine ⟨hkeys, List.nodup_singleton _, ?_⟩
          intro name hname name' hname' heq
          obtain rfl : name' = row.username := by simpa using hname'
          exact hfree (heq ▸ hname)
        obtain ⟨added, haccounts, hsub, hnodup⟩ := ih htail hkeys'
        refine ⟨row.account :: added, ?_, ?_, hnodup⟩
        · rw [performAll, List.foldl_cons]
          have hlast := haccounts
          rw [performAll, hadds, List.map_append, List.append_assoc] at hlast
          exact hlast
        · rw [List.filterMap_cons_some hstores]
          exact hsub.cons_cons _

/-- An account is never lost, and no statement adds another one that reads as its name, if no
registration stores a NUL. -/
theorem hasAccount_run_iff {ss : List Statement} (hss : ∀ s ∈ ss, s.Legible)
    (hnul : ∀ a ∈ ss.filterMap Statement.stores, 0 ∉ a.1) {t : Tables}
    (hkeys : (t.users.map UserRow.username).Nodup) (htexts : ∀ r ∈ t.users, 0 ∉ r.username)
    {row : UserRow} (hrow : row ∈ t.users) {name : CStr} (hname : name.bytes = row.username)
    (pwd : CStr) :
    (performAll m t ss).HasAccount ⟨name, pwd⟩ ↔ pwd = cstr row.password := by
  obtain ⟨added, haccounts, hsub, hnodup⟩ := accounts_run hm hchanges hss hkeys
  have hmem : row.account ∈ (performAll m t ss).users.map UserRow.account := by
    rw [haccounts]
    exact List.mem_append_left _ (List.mem_map_of_mem hrow)
  obtain ⟨row', hrow', hsame⟩ := List.mem_map.mp hmem
  obtain ⟨hname', hpwd'⟩ := Prod.mk.inj hsame
  have hreads : name = cstr row'.username := by
    rw [hname', ← hname, cstr_bytes]
  constructor
  · rintro ⟨other, hother, heq, rfl⟩
    -- the names are free of NUL, so rows that read alike are one row
    have hfree : 0 ∉ other.username := by
      have haccount := List.mem_map_of_mem (f := UserRow.account) hother
      rw [haccounts] at haccount
      rcases List.mem_append.mp haccount with hold | hnew
      · obtain ⟨r, hr, hrother⟩ := List.mem_map.mp hold
        have hsameName : r.username = other.username := congrArg Prod.fst hrother
        exact hsameName ▸ htexts r hr
      · exact hnul _ (hsub.subset hnew)
    have hsameName : other.username = row'.username := by
      have hbytes := congrArg CStr.bytes (heq.symm.trans hreads)
      rw [(bytes_cstr_eq_self_iff _).mpr hfree] at hbytes
      rw [hbytes, bytes_cstr_eq_self_iff, hname', ← hname]
      exact name.nulFree
    rw [← hpwd', List.inj_on_of_nodup_map hnodup hother hrow' hsameName]
  · rintro rfl
    exact ⟨row', hrow', hreads, by rw [hpwd']⟩

/-- Whatever both programs do to the tables in between, the owner of an account logs in with its
password and with no other. -/
theorem login_after_statements {ss : List Statement} (hss : ∀ s ∈ ss, s.Legible)
    (hnul : ∀ a ∈ ss.filterMap Statement.stores, 0 ∉ a.1) {t : Tables}
    (hkeys : (t.users.map UserRow.username).Nodup) (htexts : ∀ r ∈ t.users, 0 ∉ r.username)
    {row : UserRow} (hrow : row ∈ t.users) {username : NameLine}
    (hname : username.val = row.username) {pwd : PasswordLine} (hshort : pwd.val.length < 20)
    (unwritten pSrcName : CStr) (rest : Bytes) :
    checkUserInfo m (performAll m t ss) id unwritten pSrcName
        (50 :: 10 :: (entered username.val ++ (entered pwd.val ++ rest))) =
      .returned (performAll m t ss)
        (if pwd.text = cstr row.password then ⟨.success, username.text, rest⟩
          else ⟨.failed, pSrcName, rest⟩) := by
  have htext : username.text.bytes = row.username := hname
  have hiff := hasAccount_run_iff hm hchanges hss hnul hkeys htexts hrow htext pwd.text
  rw [checkUserInfo_login hm.connected, doLogin_lines hm _ _ _ _ hshort]
  simp only [loginOutcome, hiff, Option.map_some, Entry.ofReturned]

end

/-- Somebody else registers, Bob is banned, and a message with a quote is stored. -/
def bobStatements : List Statement :=
  [.register (lit "alice") (lit "secret"), .ban true bobLine.text,
    .keepMessage [39] [39] [39] [39], .emptyMailbox bobLine.text]

theorem stores_alice :
    (Statement.register (lit "alice") (lit "secret")).stores =
      some ((lit "alice").bytes, (lit "secret").bytes) := by
  have hparse := (parse_registerText_iff (by decide : (lit "alice").strlen ≤ maxNameLen)
    (by decide : (lit "secret").strlen ≤ 20)).mpr ⟨by decide, by decide⟩
  exact stores_of_parse hparse

theorem legible_bobStatements : ∀ s ∈ bobStatements, s.Legible := by
  have hparse := (parse_registerText_iff (by decide : (lit "alice").strlen ≤ maxNameLen)
    (by decide : (lit "secret").strlen ≤ 20)).mpr ⟨by decide, by decide⟩
  have hregister : (Statement.register (lit "alice") (lit "secret")).Legible :=
    .inr (Option.isSome_iff_exists.mpr ⟨_, hparse⟩)
  simp only [bobStatements, List.forall_mem_cons]
  exact ⟨hregister, trivial, trivial, trivial, by simp⟩

theorem login_after_statements_bob :
    checkUserInfo Mysql.referenceAccounts
        (performAll Mysql.referenceAccounts bobTables bobStatements)
        id (lit "") (lit "") (50 :: 10 :: (entered bobLine.val ++ (entered secretLine.val ++ []))) =
      .returned (performAll Mysql.referenceAccounts bobTables bobStatements)
        (if secretLine.text = cstr secretLine.val then ⟨.success, bobLine.text, []⟩
          else ⟨.failed, lit "", []⟩) := by
  have hnul : ∀ a ∈ bobStatements.filterMap Statement.stores, 0 ∉ a.1 := by
    have hstores : bobStatements.filterMap Statement.stores =
        [((lit "alice").bytes, (lit "secret").bytes)] := by
      rw [bobStatements, List.filterMap_cons_some stores_alice]
      rfl
    rw [hstores, List.forall_mem_singleton]
    exact (lit "alice").nulFree
  have hkeys : (bobTables.users.map UserRow.username).Nodup := List.nodup_singleton _
  have htexts : ∀ r ∈ bobTables.users, 0 ∉ r.username :=
    List.forall_mem_singleton.mpr bobLine.text.nulFree
  have hrow : ⟨bobLine.val, secretLine.val, [48]⟩ ∈ bobTables.users := List.mem_singleton_self _
  have hshort : secretLine.val.length < 20 := by decide
  exact login_after_statements Mysql.referenceAccounts_keepsAccounts
    Mysql.referenceAccounts_changesNamedTable legible_bobStatements hnul hkeys htexts hrow rfl
    hshort (lit "") (lit "") []

/-! ## Who is online -/

theorem hasAccount_iff (t : Tables) (c : Credentials) :
    t.HasAccount c ↔
      ∃ a ∈ t.users.map UserRow.account, c.username = cstr a.1 ∧ c.pwd = cstr a.2 := by
  simp [Tables.HasAccount, UserRow.account]

/-- The database and the server, with clients that connect as `main` of the client does: when their
login has succeeded, under the name that it has left.  The nodes are those of `g_pList`; a thread
ends once. -/
structure Room where
  tables : Tables
  /-- The names of the clients that have not connected yet. -/
  loggedIn : List CStr
  g_pList : Linklist
  handOver : HandOver
  /-- The threads that have ended. -/
  ended : List ℕ

/-- Nobody has logged in yet. -/
def Room.start (t : Tables) (stUserInfo : UserInfo) : Room :=
  ⟨t, [], [], HandOver.start stUserInfo, []⟩

inductive RoomStep where
  | statement (s : Statement)
  | login (unwritten pSrcName : CStr) (stdin : Bytes)
  /-- The server accepts a client, that has written its name and perhaps more: the first `read`
  returns `piece`, which is empty if the client has left. -/
  | accept (clientName : CStr) (more behind piece : Bytes) (cFd : ℕ)
  /-- The record is written, the thread is created, or a thread reads from the record. -/
  | handOver (a : HandOverStep)
  /-- A thread reads the end of its connection. -/
  | leave (k : ℕ)

def roomStep (m : Mysql) (r : Room) : RoomStep → Option Room
  | .statement s => some { r with tables := perform m r.tables s }
  | .login unwritten pSrcName stdin =>
      (doLogin m r.tables unwritten pSrcName stdin).bind fun login =>
        if login.ulErrCode = .success then
          some { r with loggedIn := login.pSrcName :: r.loggedIn }
        else none
  | .accept clientName more behind piece cFd =>
      if clientName ∈ r.loggedIn ∧ piece <+: clientName.bytes ++ more ∧ piece.length ≤ 32 then
        let user : UserInfo := ⟨registeredName behind piece, cFd⟩
        (handOverStep r.handOver (.accept user)).map fun handOver =>
          { r with
            loggedIn := r.loggedIn.erase clientName
            g_pList := insertNode r.g_pList user.name user.fd
            handOver := handOver }
      else none
  | .handOver (.accept _) => none
  | .handOver a => (handOverStep r.handOver a).map fun handOver => { r with handOver := handOver }
  | .leave k =>
      match r.handOver.threads[k]? with
      | some ⟨_, .serving clientName _⟩ =>
          if k ∈ r.ended then none
          else some { r with g_pList := delNode r.g_pList clientName, ended := k :: r.ended }
      | _ => none

/-- No registration goes on behind its literals, and the server takes from its first `read` the
name that the client has written. -/
def ReadsName : RoomStep → Prop
  | .statement s => s.Legible
  | .accept clientName _ behind piece _ => registeredName behind piece = clientName
  | _ => True

/-- The name is that of an account. -/
def Tables.HasUser (t : Tables) (name : CStr) : Prop := ∃ pwd, t.HasAccount ⟨name, pwd⟩

/-- Whoever is in the list of the server, or is served by a thread, has an account. -/
structure Room.Known (r : Room) : Prop where
  listed : ∀ p ∈ r.g_pList, r.tables.HasUser p.name
  served : ∀ t ∈ r.handOver.threads, ∀ clientName ∈ t.reading.clientName?,
    r.tables.HasUser clientName

/-- And so has whoever is about to connect, or is being accepted. -/
structure Room.Registered (r : Room) : Prop where
  loggedIn : ∀ name ∈ r.loggedIn, r.tables.HasUser name
  listed : ∀ p ∈ r.g_pList, r.tables.HasUser p.name
  handOver : r.handOver.Names r.tables.HasUser

theorem Room.Registered.known {r : Room} (h : r.Registered) : r.Known :=
  ⟨h.listed, h.handOver.read⟩

theorem registered_start (t : Tables) (stUserInfo : UserInfo) :
    (Room.start t stUserInfo).Registered :=
  ⟨fun _ h => absurd h List.not_mem_nil, fun _ h => absurd h List.not_mem_nil,
    names_start _ stUserInfo⟩

/-- A step of the hand-over that is not the acceptance of a client. -/
theorem roomStep_handOver {m : Mysql} {r r' : Room} {b : HandOverStep}
    (h : roomStep m r (.handOver b) = some r') :
    (∀ user, b ≠ .accept user) ∧ ∃ handOver, handOverStep r.handOver b = some handOver ∧
      r' = { r with handOver := handOver } := by
  cases b with
  | accept user => cases h
  | writeName | writeFd | create | readName _ | readFd _ =>
      obtain ⟨handOver, hb, rfl⟩ := Option.map_eq_some_iff.mp h
      exact ⟨nofun, handOver, hb, rfl⟩

section
variable {m : Mysql} (hm : m.KeepsAccounts) (hchanges : m.ChangesNamedTable)
include hm hchanges

theorem hasUser_perform {t : Tables} {s : Statement} (hs : s.Legible) {name : CStr}
    (h : t.HasUser name) : (perform m t s).HasUser name := by
  obtain ⟨pwd, haccount⟩ := h
  rw [hasAccount_iff] at haccount
  obtain ⟨a, ha, hreads⟩ := haccount
  refine ⟨pwd, (hasAccount_iff _ _).mpr ⟨a, ?_, hreads⟩⟩
  rcases perform_cases hm hchanges t hs with hsame | ⟨row, -, -, hadds⟩
  · rw [hsame]
    exact ha
  · rw [hadds, List.map_append]
    exact List.mem_append_left _ ha

theorem registered_step (r : Room) (a : RoomStep) (r' : Room) (hr : r.Registered)
    (ha : ReadsName a) (h : roomStep m r a = some r') : r'.Registered := by
  cases a with
  | statement s =>
      obtain rfl := Option.some.inj h
      have hkept : ∀ name, r.tables.HasUser name → (perform m r.tables s).HasUser name :=
        fun _ => hasUser_perform hm hchanges ha
      exact ⟨fun name hname => hkept _ (hr.loggedIn name hname),
        fun p hp => hkept _ (hr.listed p hp), hr.handOver.mono hkept⟩
  | login unwritten pSrcName stdin =>
      obtain ⟨login, hlogin, h⟩ := Option.bind_eq_some_iff.mp h
      obtain ⟨hcode, h⟩ := Option.ite_none_right_eq_some.mp h
      obtain rfl := Option.some.inj h
      have hsuccess : doLogin m r.tables unwritten pSrcName stdin =
          some ⟨.success, login.pSrcName, login.stdin⟩ := by
        rw [hlogin, ← hcode]
      obtain ⟨pwd, -, haccount⟩ := (doLogin_success_iff hm).mp hsuccess
      exact ⟨List.forall_mem_cons.mpr ⟨⟨pwd, haccount⟩, hr.loggedIn⟩, hr.listed, hr.handOver⟩
  | accept clientName more behind piece cFd =>
      obtain ⟨⟨hwaits, -, -⟩, h⟩ := Option.ite_none_right_eq_some.mp h
      obtain ⟨handOver, haccept, rfl⟩ := Option.map_eq_some_iff.mp h
      have hknown : r.tables.HasUser (registeredName behind piece) :=
        ha.symm ▸ hr.loggedIn clientName hwaits
      refine ⟨fun name hname => hr.loggedIn name (List.mem_of_mem_erase hname),
        List.forall_mem_cons.mpr ⟨hknown, hr.listed⟩, names_handOverStep hr.handOver ?_ haccept⟩
      rintro user huser
      obtain rfl := HandOverStep.accept.inj huser
      exact hknown
  | handOver b =>
      obtain ⟨hother, handOver, hb, rfl⟩ := roomStep_handOver h
      exact ⟨hr.loggedIn, hr.listed,
        names_handOverStep hr.handOver (fun user huser => absurd huser (hother user)) hb⟩
  | leave k =>
      simp only [roomStep] at h
      split at h
      · obtain ⟨-, h⟩ := Option.ite_none_left_eq_some.mp h
        obtain rfl := Option.some.inj h
        exact ⟨hr.loggedIn, fun p hp => hr.listed p ((delNode_sublist _ _).subset hp),
          hr.handOver⟩
      · cases h

/-- Every name that the server has in its list, or serves, is that of an account, in every state of
a run in which the server takes each name as the client has written it.  The order in which the
record is written and read does not matter for that. -/
theorem online_have_accounts (t : Tables) (stUserInfo : UserInfo) {steps : List RoomStep}
    (hsteps : ∀ a ∈ steps, ReadsName a) :
    EveryState (roomStep m) Room.Known (Room.start t stUserInfo) steps :=
  everyState_of_guarded (registered_step hm hchanges) (fun _ h => h.known)
    (registered_start t stUserInfo) (everyStep_of_forall_mem (roomStep m) _ hsteps)

end

/-- Bob logs in twice, and the second client is accepted before the thread of the first has run;
then he is banned, and one client leaves. -/
def bobSteps : List RoomStep :=
  [.login (lit "") (lit "") (entered bobLine.val ++ (entered secretLine.val ++ [])),
    .login (lit "") (lit "") (entered bobLine.val ++ (entered secretLine.val ++ [])),
    .accept bobLine.text [0, 0] [] bobLine.val 4, .handOver .writeName, .handOver .writeFd,
    .handOver .create, .accept bobLine.text [] [] bobLine.val 5, .handOver (.readName 0),
    .handOver .writeName, .handOver (.readFd 0), .statement (.ban true bobLine.text), .leave 0]

theorem online_have_accounts_bob :
    EveryState (roomStep Mysql.referenceAccounts) Room.Known
      (Room.start bobTables ⟨lit "", 0⟩) bobSteps := by
  have hread : registeredName [] bobLine.val = bobLine.text := by
    rw [registeredName_of_lt (by decide)]
    rfl
  have hsteps : ∀ a ∈ bobSteps, ReadsName a := by
    simp [bobSteps, ReadsName, Statement.Legible, hread]
  exact online_have_accounts Mysql.referenceAccounts_keepsAccounts
    Mysql.referenceAccounts_changesNamedTable bobTables ⟨lit "", 0⟩ hsteps

end ChatRoom
