import ChatRoom.Server.Effects

/-!
# The outcome of a request

What becomes of a frame that is addressed to one user: it is relayed to a registered
session of that name, stored in the message table, or refused.
-/

namespace ChatRoom

open CString SqlText

/-- The frame is written to the socket of a node with the name of the destination. -/
def Relayed (s : ServerState) (frame : MsgData) (result : HandlerResult) : Prop :=
  ∃ pDestNode ∈ s.g_pList, pDestNode.name = frame.desNameStr ∧
    ∃ bytes ∈ [frame.toBytes, frame.shortFrame], .relay pDestNode bytes ∈ result.effects

/-- A row with sender, receiver and text of the frame is added to the message table. -/
def Stored (s : ServerState) (frame : MsgData) (result : HandlerResult) : Prop :=
  ∃ time, result.tables.message = s.tables.message ++
    [⟨frame.srcNameStr.bytes, frame.desNameStr.bytes, frame.pDataStr.bytes, time⟩]

/-- A rejection is written back to the sender. -/
def Refused (cFd : ℕ) (frame : MsgData) (result : HandlerResult) : Prop :=
  ∃ bytes ∈ [(frame.copyText addFriendRetMsg).toBytes,
      (frame.copyText sendMsg2OneRetMsg).toBytes,
      (frame.clearBody.copyText sendFile2OneRetMsg).shortFrame],
    .reply cFd bytes ∈ result.effects

/-- The turn of the loop leaves a trace of the request. -/
def VisibleOutcome (s : ServerState) (cFd : ℕ) (frame : MsgData) : Prop :=
  match procClientRequest s cFd frame with
  | .called _ result => Relayed s frame result ∨ Stored s frame result ∨ Refused cFd frame result
  | _ => False

section
variable {s : ServerState} {frame : MsgData} {cFd : ℕ}

theorem relayed_of_searchName {p : Node} (bytes : Bytes) {result : HandlerResult}
    (hbytes : bytes ∈ [frame.toBytes, frame.shortFrame])
    (hfound : searchName s.g_pList frame.desNameStr = some p)
    (heffect : .relay p bytes ∈ result.effects) : Relayed s frame result :=
  ⟨p, mem_of_searchName hfound, name_of_searchName hfound, bytes, hbytes, heffect⟩

/-- A friend request to a user that does not exist is refused, one to a registered user
is relayed. -/
theorem outcome_addFriend (hm : s.mysql.Documented)
    (hdesPlain : Plain frame.desNameStr.bytes) (hdesLen : frame.desNameStr.strlen ≤ 24)
    (honline : (∃ row ∈ s.tables.users, row.username = frame.desNameStr.bytes) →
      ∃ p ∈ s.g_pList, p.name = frame.desNameStr) :
    let result := procAddFriendMsg s frame frame.desNameStr cFd
    Relayed s frame result ∨ Refused cFd frame result := by
  intro result
  have hcheck := checkUserIsExist_documented hm (t := s.tables) hdesPlain hdesLen
  by_cases hexists : ∃ row ∈ s.tables.users, row.username = frame.desNameStr.bytes
  · rw [if_pos hexists] at hcheck
    rcases hfound : searchName s.g_pList frame.desNameStr with _ | p
    · obtain ⟨p, hp, hname⟩ := honline hexists
      exact absurd hname (searchName_eq_none_iff.mp hfound p hp)
    · refine .inl (relayed_of_searchName frame.shortFrame (by simp) hfound ?_)
      rw [effects_procAddFriendMsg, hcheck, hfound]
      exact List.mem_singleton_self _
  · rw [if_neg hexists] at hcheck
    refine .inr ⟨(frame.copyText addFriendRetMsg).toBytes, by simp, ?_⟩
    rw [effects_procAddFriendMsg, hcheck]
    exact List.mem_singleton_self _

/-- A message to a stranger is refused, one to a registered friend is relayed, and one to
a friend who is not registered is stored if the statement fits its buffer. -/
theorem outcome_sendOne (hm : s.mysql.Documented)
    (hsrcPlain : Plain frame.srcNameStr.bytes) (hdesPlain : Plain frame.desNameStr.bytes)
    (hsrcLen : frame.srcNameStr.strlen ≤ maxNameLen)
    (hdesLen : frame.desNameStr.strlen ≤ maxNameLen)
    (hstored : (frame.srcNameStr.bytes, frame.desNameStr.bytes) ∈ s.tables.friends →
      (∀ p ∈ s.g_pList, p.name ≠ frame.desNameStr) →
        Plain frame.pDataStr.bytes ∧
          frame.srcNameStr.strlen + frame.desNameStr.strlen + frame.pDataStr.strlen +
            (getMsgTime s.now).length ≤ 60) :
    let result := procSendMsg2One s frame frame.desNameStr cFd
    Relayed s frame result ∨ Stored s frame result ∨ Refused cFd frame result := by
  intro result
  have hcheck := checkReciverIsFriend_documented hm (t := s.tables) rfl hsrcPlain hdesPlain
    hsrcLen hdesLen
  by_cases hfriend : (frame.srcNameStr.bytes, frame.desNameStr.bytes) ∈ s.tables.friends
  · rw [if_pos hfriend] at hcheck
    rcases hfound : searchName s.g_pList frame.desNameStr with _ | p
    · obtain ⟨hbodyPlain, hfits⟩ := hstored hfriend (searchName_eq_none_iff.mp hfound)
      have hinsert := insertUserMsg2Mysql_documented hm (t := s.tables) rfl hsrcPlain
        hdesPlain hbodyPlain s.now
      rw [if_pos hfits] at hinsert
      refine .inr (.inl ⟨getMsgTime s.now, ?_⟩)
      simp only [result, procSendMsg2One, hcheck, hfound, hinsert, returning]
    · refine .inl (relayed_of_searchName frame.shortFrame (by simp) hfound ?_)
      rw [effects_procSendMsg2One, hcheck, hfound]
      exact List.mem_singleton_self _
  · rw [if_neg hfriend] at hcheck
    refine .inr (.inr ⟨(frame.copyText sendMsg2OneRetMsg).toBytes, by simp, ?_⟩)
    rw [effects_procSendMsg2One, hcheck]
    exact List.mem_singleton_self _

/-- A file frame is relayed to a registered user and refused otherwise. -/
theorem outcome_sendFile :
    let result := procSendFile2One s frame frame.desNameStr cFd
    Relayed s frame result ∨ Refused cFd frame result := by
  intro result
  rcases hfound : searchName s.g_pList frame.desNameStr with _ | p
  · refine .inr ⟨(frame.clearBody.copyText sendFile2OneRetMsg).shortFrame, by simp, ?_⟩
    rw [effects_procSendFile2One, hfound]
    exact List.mem_singleton_self _
  · refine .inl (relayed_of_searchName frame.toBytes (by simp) hfound ?_)
    rw [effects_procSendFile2One, hfound]
    exact List.mem_singleton_self _

end

/-- What a request needs for a visible outcome.  The loop passes over a body that reads
"exit"; the rest is about the texts of the statements, and about friend requests to
users who exist but are not registered, which are not kept. -/
structure Answerable (s : ServerState) (frame : MsgData) : Prop where
  notExit : frame.pDataStr ≠ lit "exit"
  addFriend : frame.stMsgHead.enMsgType = MsgType.addFriend.code →
    Plain frame.desNameStr.bytes ∧ frame.desNameStr.strlen ≤ 24 ∧
      ((∃ row ∈ s.tables.users, row.username = frame.desNameStr.bytes) →
        ∃ p ∈ s.g_pList, p.name = frame.desNameStr)
  names : frame.stMsgHead.enMsgType = MsgType.sendOne.code →
    Plain frame.srcNameStr.bytes ∧ Plain frame.desNameStr.bytes
  stored : frame.stMsgHead.enMsgType = MsgType.sendOne.code →
    (frame.srcNameStr.bytes, frame.desNameStr.bytes) ∈ s.tables.friends →
      (∀ p ∈ s.g_pList, p.name ≠ frame.desNameStr) →
        Plain frame.pDataStr.bytes ∧
          frame.srcNameStr.strlen + frame.desNameStr.strlen + frame.pDataStr.strlen +
            (getMsgTime s.now).length ≤ 60

/-- Every answerable frame of the three types has a visible outcome. -/
theorem visibleOutcome_of_answerable {s : ServerState} {frame : MsgData}
    (hm : s.mysql.Documented) {enMsgType : MsgType} (htoOne : enMsgType.ToOne)
    (htype : frame.stMsgHead.enMsgType = enMsgType.code)
    {src des : CStr} (hsrc : frame.stMsgHead.srcName.Holds src)
    (hdes : frame.stMsgHead.desName.Holds des) (hframe : Answerable s frame) (cFd : ℕ) :
    VisibleOutcome s cFd frame := by
  have hsrcLen : frame.srcNameStr.strlen ≤ maxNameLen :=
    MsgData.srcNameStr_of_holds hsrc ▸ Nat.le_of_lt_succ hsrc.strlen_lt
  have hdesLen : frame.desNameStr.strlen ≤ maxNameLen :=
    MsgData.desNameStr_of_holds hdes ▸ Nat.le_of_lt_succ hdes.strlen_lt
  simp only [VisibleOutcome, procClientRequest, if_neg hframe.notExit, htype,
    MsgType.ofCode?_code]
  rcases htoOne with rfl | rfl | rfl
  · obtain ⟨hdesPlain, hlen, honline⟩ := hframe.addFriend htype
    exact (outcome_addFriend hm hdesPlain hlen honline).imp_right .inr
  · obtain ⟨hsrcPlain, hdesPlain⟩ := hframe.names htype
    exact outcome_sendOne hm hsrcPlain hdesPlain hsrcLen hdesLen (hframe.stored htype)
  · exact outcome_sendFile.imp_right .inr

/-- A message to a friend who is not registered. -/
theorem visibleOutcome_stored :
    VisibleOutcome ⟨Mysql.reference, ⟨[], [(utf8 "a", utf8 "b")], []⟩, [], ⟨12, 30, 0⟩⟩ 5
      (MsgData.make .sendOne (lit "a") (lit "b") (lit "hello")) := by
  have hsrc : (MsgData.make .sendOne (lit "a") (lit "b") (lit "hello")).stMsgHead.srcName.Holds
      (lit "a") := by decide
  have hdes : (MsgData.make .sendOne (lit "a") (lit "b") (lit "hello")).stMsgHead.desName.Holds
      (lit "b") := by decide
  refine visibleOutcome_of_answerable Mysql.reference_documented (.inr (.inl rfl)) rfl hsrc hdes
    ⟨by decide +kernel, fun h => absurd h (by decide), fun _ => by decide +kernel,
      fun _ _ _ => by decide +kernel⟩ 5

/-- A message that reads "exit" leaves no trace, even to a registered friend. -/
theorem not_visibleOutcome :
    ¬ ∀ (s : ServerState) (frame : MsgData) (enMsgType : MsgType) (src des : CStr) (cFd : ℕ),
      s.mysql.Documented → enMsgType.ToOne →
      frame.stMsgHead.enMsgType = enMsgType.code →
      frame.stMsgHead.srcName.Holds src → frame.stMsgHead.desName.Holds des →
        VisibleOutcome s cFd frame := by
  intro h
  let s : ServerState :=
    ⟨Mysql.reference, ⟨[], [(utf8 "a", utf8 "b")], []⟩, [⟨lit "b", 5⟩], ⟨12, 30, 0⟩⟩
  let frame := MsgData.make .sendOne (lit "a") (lit "b") (lit "exit")
  have hexit : frame.pDataStr = lit "exit" := by decide +kernel
  have hvisible := h s frame .sendOne (lit "a") (lit "b") 6 Mysql.reference_documented
    (.inr (.inl rfl)) rfl (by decide) (by decide)
  simp only [VisibleOutcome, procClientRequest, if_pos hexit] at hvisible

end ChatRoom
