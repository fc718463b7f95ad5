import ChatRoom.Core.MysqlClient
import ChatRoom.Server.Lookups

/-!
# Answering a friend request

`doProcAddFriendRequest` of `client_proc.c` and `insertFriend2Mysql` of `mysql.c`.  The
client of the user who is asked stores the friendship itself, by two statements in buffers
of 64 bytes, and then tells the other side whatever came of them.
-/

namespace ChatRoom

open CString SqlText

/-- Both directions of a friendship are inserted, each by a statement of its own; `none` is
the end of the client process. -/
def insertFriend2Mysql (m : Mysql) (t : Tables) (pSendName pRecvName : CStr) : Option Tables :=
  if m.connect then
    let insertSql1 := snprintf 64 (sql friendsInsert [pSendName.bytes, pRecvName.bytes])
    let insertSql2 := snprintf 64 (sql friendsInsert [pRecvName.bytes, pSendName.bytes])
    let t₁ := (m.queryModify t insertSql1).getD t
    some ((m.queryModify t₁ insertSql2).getD t₁)
  else none

/-- The texts of the two answers. -/
def acceptedMsg : CStr := lit "对方已同意您的好友请求"
def refusedMsg : CStr := lit "对方拒绝了您的好友请求"

/-- What an answer has done: the arguments of the call of `insertFriend2Mysql`, if there was
one, the tables after it, and the reply, unless the process ended in that call. -/
structure Answer where
  inserted : Option (CStr × CStr)
  tables : Tables
  reply : Option MsgData

/-- A reply is printed; a request is answered by the user. -/
inductive AddFriendTurn where
  | printed (pData : CStr)
  | answered (answer : Answer)

/-- The request with the sender as its new destination, and no text. -/
def MsgData.turnedBack (pstClientMsg : MsgData) : MsgData :=
  let head := pstClientMsg.stMsgHead
  { stMsgHead := { head with
      desName := (CharArray.zero 32).strcpy pstClientMsg.srcNameStr }
    pData := CharArray.zero 256 }

/-- `strcpy` to the body. -/
def MsgData.setText (msg : MsgData) (text : CStr) : MsgData :=
  { msg with pData := msg.pData.strcpy text }

/-- `doProcAddFriendRequest`, with what `scanf` leaves in `choice`.  A frame whose sender is
the client's own user is a reply. -/
def doProcAddFriendRequest (m : Mysql) (t : Tables) (pstClientMsg : MsgData) (pcName : CStr)
    (choice : ℤ) : AddFriendTurn :=
  let sendName := pstClientMsg.srcNameStr
  if sendName = pcName then .printed (cstr pstClientMsg.pData.bytes)
  else if choice = 0 then
    match insertFriend2Mysql m t sendName pcName with
    | none => .answered ⟨some (sendName, pcName), t, none⟩
    -- the result of the statements is not looked at
    | some t' =>
        .answered ⟨some (sendName, pcName), t', some (pstClientMsg.turnedBack.setText acceptedMsg)⟩
  else .answered ⟨none, t, some (pstClientMsg.turnedBack.setText refusedMsg)⟩

/-! ## The inserts -/

section
variable {m : Mysql} (hm : m.DocumentedClient) {t : Tables} {a b : CStr}
  (ha : Plain a.bytes) (hb : Plain b.bytes)
include hm ha hb

/-- An insert that does not fit its buffer is rejected. -/
theorem queryModify_friendsInsert_cut (hlong : 13 < a.strlen + b.strlen) :
    m.queryModify t (snprintf 64 (sql friendsInsert [a.bytes, b.bytes])) = none := by
  have hlen := length_friendsInsert a.bytes b.bytes
  simp only [CStr.strlen] at hlong
  rw [sql_friendsInsert] at hlen ⊢
  apply hm.unfinishedModify
  exact unfinished_take_friendsInsert ha hb (by omega) (by omega)

/-- The inserts store both rows if the statements fit their buffers, and none if not. -/
theorem insertFriend2Mysql_documented (hne : a ≠ b) (hab : (a.bytes, b.bytes) ∉ t.friends)
    (hba : (b.bytes, a.bytes) ∉ t.friends) :
    insertFriend2Mysql m t a b =
      some (if a.strlen + b.strlen ≤ 13 then
        { t with friends := t.friends ++ [(a.bytes, b.bytes)] ++ [(b.bytes, a.bytes)] }
      else t) := by
  simp only [insertFriend2Mysql, if_pos hm.connected]
  by_cases hfits : a.strlen + b.strlen ≤ 13
  · have hbytes : b.bytes ≠ a.bytes := fun h => hne (CStr.ext_bytes h.symm)
    have hnew : (b.bytes, a.bytes) ∉ t.friends ++ [(a.bytes, b.bytes)] := by
      simp [hba, hbytes]
    have hfirst : (sql friendsInsert [a.bytes, b.bytes]).length < 64 := by
      rw [length_friendsInsert]
      simp only [CStr.strlen] at hfits
      omega
    have hsecond : (sql friendsInsert [b.bytes, a.bytes]).length < 64 := by
      rw [length_friendsInsert] at hfirst ⊢
      omega
    rw [if_pos hfits, snprintf_eq_self hfirst, snprintf_eq_self hsecond,
      hm.friendsInsert t _ _ ha hb hab, Option.getD_some, hm.friendsInsert _ _ _ hb ha hnew,
      Option.getD_some]
  · have hlong : 13 < a.strlen + b.strlen := by omega
    rw [if_neg hfits, queryModify_friendsInsert_cut hm ha hb hlong, Option.getD_none,
      queryModify_friendsInsert_cut hm hb ha (by omega), Option.getD_none]

end

/-! ## Acceptance -/

/-- When the reply to an accepted request of `a` is written, the two users are friends in
both directions, for the table and for the server's look-up. -/
def AcceptanceTakesEffect (m : Mysql) (t : Tables) (request : MsgData) (a b : CStr) : Prop :=
  ∃ answer reply, doProcAddFriendRequest m t request b 0 = .answered answer ∧
    answer.reply = some reply ∧
    (a.bytes, b.bytes) ∈ answer.tables.friends ∧ (b.bytes, a.bytes) ∈ answer.tables.friends ∧
    (∀ msg : MsgData, msg.srcNameStr = a →
      checkReciverIsFriend m answer.tables msg b = some .success) ∧
    ∀ msg : MsgData, msg.srcNameStr = b →
      checkReciverIsFriend m answer.tables msg a = some .success

/-- What an accepted request does with a database as documented. -/
theorem doProcAddFriendRequest_accepted {m : Mysql} {t : Tables} {request : MsgData}
    {a b : CStr} (hm : m.DocumentedClient) (hrequest : request.srcNameStr = a)
    (ha : Plain a.bytes) (hb : Plain b.bytes) (hne : a ≠ b)
    (hab : (a.bytes, b.bytes) ∉ t.friends) (hba : (b.bytes, a.bytes) ∉ t.friends) :
    doProcAddFriendRequest m t request b 0 = .answered ⟨some (a, b),
      if a.strlen + b.strlen ≤ 13 then
        { t with friends := t.friends ++ [(a.bytes, b.bytes)] ++ [(b.bytes, a.bytes)] }
      else t, some (request.turnedBack.setText acceptedMsg)⟩ := by
  have hinsert := insertFriend2Mysql_documented hm ha hb hne hab hba
  simp only [doProcAddFriendRequest, hrequest, if_neg hne, hinsert, if_pos]

/-- An accepted request makes two users friends exactly if their names have at most 13
bytes together; the reply says so in any case. -/
theorem acceptanceTakesEffect_iff {m : Mysql} {t : Tables} {request : MsgData} {a b : CStr}
    (hm : m.DocumentedClient) (hrequest : request.srcNameStr = a)
    (ha : Plain a.bytes) (hb : Plain b.bytes)
    (haLen : a.strlen ≤ 30) (hbLen : b.strlen ≤ 30) (hne : a ≠ b)
    (hab : (a.bytes, b.bytes) ∉ t.friends) (hba : (b.bytes, a.bytes) ∉ t.friends) :
    AcceptanceTakesEffect m t request a b ↔ a.strlen + b.strlen ≤ 13 := by
  have hturn := doProcAddFriendRequest_accepted hm hrequest ha hb hne hab hba
  rw [AcceptanceTakesEffect, hturn]
  constructor
  · rintro ⟨answer, reply, hanswer, -, hrow, -⟩
    cases hanswer
    by_contra hlong
    rw [if_neg hlong] at hrow
    exact hab hrow
  · intro hfits
    rw [if_pos hfits]
    have haName : a.strlen ≤ maxNameLen := haLen.trans (by decide)
    have hbName : b.strlen ≤ maxNameLen := hbLen.trans (by decide)
    refine ⟨_, _, rfl, rfl, by simp, by simp, ?_, ?_⟩
    · intro msg hmsg
      rw [checkReciverIsFriend_documented hm.toDocumented hmsg ha hb haName hbName, if_pos]
      simp
    · intro msg hmsg
      rw [checkReciverIsFriend_documented hm.toDocumented hmsg hb ha hbName haName, if_pos]
      simp

/-- "alice" asks "bob", who accepts. -/
theorem acceptanceTakesEffect_alice :
    AcceptanceTakesEffect Mysql.referenceClient ⟨[], [], []⟩
      (MsgData.make .addFriend (lit "alice") (lit "bob") (lit "")) (lit "alice") (lit "bob") := by
  have hrequest : (MsgData.make .addFriend (lit "alice") (lit "bob") (lit "")).srcNameStr =
      lit "alice" := by
    decide +kernel
  have hfits : (lit "alice").strlen + (lit "bob").strlen ≤ 13 := by decide
  exact (acceptanceTakesEffect_iff Mysql.referenceClient_documented hrequest (by decide)
    (by decide) (by decide) (by decide) (by decide) List.not_mem_nil List.not_mem_nil).mpr hfits

/-- "christopher" asks "bob": both statements are cut before their end. -/
theorem not_acceptanceTakesEffect :
    ¬ ∀ (m : Mysql) (t : Tables) (request : MsgData) (a b : CStr), m.DocumentedClient →
      request.srcNameStr = a → Plain a.bytes → Plain b.bytes →
      1 ≤ a.strlen → a.strlen ≤ 30 → 1 ≤ b.strlen → b.strlen ≤ 30 → a ≠ b →
      (∃ row ∈ t.users, row.username = a.bytes) → (∃ row ∈ t.users, row.username = b.bytes) →
      (a.bytes, b.bytes) ∉ t.friends → (b.bytes, a.bytes) ∉ t.friends →
        AcceptanceTakesEffect m t request a b := by
  intro h
  let t : Tables := ⟨[⟨utf8 "christopher", utf8 "secret", utf8 "0"⟩,
    ⟨utf8 "bob", utf8 "secret", utf8 "0"⟩], [], []⟩
  let request := MsgData.make .addFriend (lit "christopher") (lit "bob") (lit "")
  have hrequest : request.srcNameStr = lit "christopher" := by decide +kernel
  have haPlain : Plain (lit "christopher").bytes := by decide
  have hbPlain : Plain (lit "bob").bytes := by decide
  have hne : lit "christopher" ≠ lit "bob" := by decide
  have hturn := doProcAddFriendRequest_accepted (t := t) Mysql.referenceClient_documented hrequest
    haPlain hbPlain hne List.not_mem_nil List.not_mem_nil
  obtain ⟨answer, -, hanswer, -, hrow, -⟩ := h Mysql.referenceClient t request
    (lit "christopher") (lit "bob") Mysql.referenceClient_documented hrequest haPlain hbPlain
    (by decide) (by decide) (by decide) (by decide) hne (by decide) (by decide)
    List.not_mem_nil List.not_mem_nil
  rw [hturn, if_neg (by decide)] at hanswer
  cases hanswer
  exact absurd hrow List.not_mem_nil

end ChatRoom
