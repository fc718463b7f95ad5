import ChatRoom.Client.File
import ChatRoom.Server.Effects

/-!
# The receive loop of the client

One turn of the loop of `clientProcRecvMsg`.  The client reads one byte less than the
structure has, into a buffer of that size.
-/

namespace ChatRoom

open CString Framing

/-- The size the client asks `read` for. -/
def recvSize : ℕ := sizeofMsgHead + maxWordLen

/-- The three ways to treat a record. -/
inductive RecvBranch where
  | doRecvFile
  | doProcAddFriendRequest
  | printed
deriving DecidableEq

def recvBranch (enMsgType : BitVec 32) : RecvBranch :=
  if enMsgType = MsgType.sendFile.code then .doRecvFile
  else if enMsgType = MsgType.addFriend.code then .doProcAddFriendRequest
  else .printed

/-- What the loop passes on: the branch, the fields of the header that the branches
read, and the `MAX_WORD_LEN` bytes of text. -/
structure ClientDispatch where
  branch : RecvBranch
  enMsgType : BitVec 32
  srcName : CharArray 32
  filename : CharArray 32
  filesize : BitVec 32
  text : Bytes

/-- The dispatch of the message in the buffer. -/
def dispatchRecord (pcMsgBuf : MsgData) : ClientDispatch where
  branch := recvBranch pcMsgBuf.stMsgHead.enMsgType
  enMsgType := pcMsgBuf.stMsgHead.enMsgType
  srcName := pcMsgBuf.stMsgHead.srcName
  filename := pcMsgBuf.stMsgHead.filename
  filesize := pcMsgBuf.stMsgHead.filesize
  text := pcMsgBuf.pData.bytes.take maxWordLen

/-- One turn of the loop with the given bytes in the cleared buffer, as far as it
changes files or the packet counter. -/
def clientProcRecvMsg (state : RecvState) (pcName : CStr) (record : Bytes) (io : FileIo) :
    RecvState :=
  let pcMsgBuf := MsgData.ofBytes (record.take recvSize)
  match recvBranch pcMsgBuf.stMsgHead.enMsgType with
  | .doRecvFile => doRecvFile state pcMsgBuf pcName io
  | .doProcAddFriendRequest | .printed => state

/-! ## What the server writes to one client -/

/-- A call of a handler by some session of the server. -/
structure HandlerCall where
  enMsgType : MsgType
  s : ServerState
  pstData : MsgData
  pcDesName : CStr
  srcFd : ℕ

def HandlerCall.effects (call : HandlerCall) : List Effect :=
  (astProcClientOptFunc call.enMsgType call.s call.pstData call.pcDesName call.srcFd).effects

/-- The frames of the call that are written to the descriptor. -/
def HandlerCall.framesTo (call : HandlerCall) (cFd : ℕ) : List Bytes :=
  (call.effects.filter (·.fd = cFd)).map Effect.bytes

def framesTo (calls : List HandlerCall) (cFd : ℕ) : List Bytes :=
  calls.flatMap (·.framesTo cFd)

/-- The call writes the whole structure to the descriptor: it refuses a request of
that client, or relays a file to it. -/
def HandlerCall.FullSizeTo (call : HandlerCall) (cFd : ℕ) : Prop :=
  match call.enMsgType with
  | .addFriend =>
      call.srcFd = cFd ∧
        checkUserIsExist call.s.mysql call.s.tables call.pcDesName = some .failed
  | .delFriend | .sendOne =>
      call.srcFd = cFd ∧
        checkReciverIsFriend call.s.mysql call.s.tables call.pstData call.pcDesName =
          some .failed
  | .sendFile =>
      ∃ pSearchNode, searchName call.s.g_pList call.pcDesName = some pSearchNode ∧
        pSearchNode.sfd = cFd
  | _ => False

@[simp] theorem length_shortFrame (msg : MsgData) : msg.shortFrame.length = recvSize := by
  rw [MsgData.shortFrame, List.length_take, MsgData.length_toBytes]
  rfl

theorem mem_framesTo {call : HandlerCall} {cFd : ℕ} {frame : Bytes} :
    frame ∈ call.framesTo cFd ↔ ∃ e ∈ call.effects, e.fd = cFd ∧ e.bytes = frame := by
  simp [HandlerCall.framesTo, and_assoc]

theorem length_of_mem_relays {node : Option Node} {msg : MsgData} {e : Effect}
    (he : e ∈ node.toList.map (Effect.relay · msg.shortFrame)) :
    e.bytes.length = recvSize := by
  obtain ⟨p, -, rfl⟩ := List.mem_map.mp he
  exact length_shortFrame msg

/-- The writes of a handler that makes a look-up are as long as the client's reads,
unless they are its refusal. -/
theorem length_of_mem_checked {found : Option ErrCode} {srcFd : ℕ} {refusal : MsgData}
    {accepted : List Effect} (haccepted : ∀ e ∈ accepted, e.bytes.length = recvSize)
    {e : Effect} (he : e ∈ checked found srcFd refusal accepted) :
    e.bytes.length = recvSize ∨
      e.bytes.length = sizeofMsgData ∧ srcFd = e.fd ∧ found = some .failed := by
  rcases mem_checked.mp he with ⟨hfailed, rfl⟩ | ⟨-, he⟩
  · exact .inr ⟨MsgData.length_toBytes refusal, rfl, hfailed⟩
  · exact .inl (haccepted e he)

/-- Every write is as long as the client's reads, or the call writes the whole structure
there.  `procBanOne`, whose reply has no header, is left out. -/
theorem length_of_mem_effects {call : HandlerCall} (hban : call.enMsgType ≠ .banOne)
    {e : Effect} (he : e ∈ call.effects) :
    e.bytes.length = recvSize ∨ e.bytes.length = sizeofMsgData ∧ call.FullSizeTo e.fd := by
  obtain ⟨enMsgType, s, pstData, pcDesName, srcFd⟩ := call
  cases enMsgType with
  | showAll | showFriend | logout => exact absurd he List.not_mem_nil
  | addFriend =>
      rw [HandlerCall.effects, astProcClientOptFunc, effects_procAddFriendMsg] at he
      exact length_of_mem_checked (fun _ => length_of_mem_relays) he
  | delFriend =>
      rw [HandlerCall.effects, astProcClientOptFunc, effects_procDelFriendMsg] at he
      refine length_of_mem_checked (fun e he => ?_) he
      obtain ⟨t, -, rfl⟩ := List.mem_map.mp he
      exact length_shortFrame _
  | sendOne =>
      rw [HandlerCall.effects, astProcClientOptFunc, effects_procSendMsg2One] at he
      exact length_of_mem_checked (fun _ => length_of_mem_relays) he
  | sendAll =>
      rw [HandlerCall.effects, astProcClientOptFunc, effects_procSendMsg2All] at he
      obtain ⟨p, -, -, rfl⟩ := relay_mem_sendMsg2AllLoop he
      exact .inl (length_shortFrame pstData)
  | sendFile =>
      rw [HandlerCall.effects, astProcClientOptFunc, effects_procSendFile2One] at he
      rcases hfound : searchName s.g_pList pcDesName with _ | p
      · rw [hfound] at he
        rw [List.mem_singleton.mp he]
        exact .inl (length_shortFrame _)
      · rw [hfound] at he
        rw [List.mem_singleton.mp he]
        exact .inr ⟨MsgData.length_toBytes pstData, p, hfound, rfl⟩
  | banOne => exact absurd rfl hban

/-- A call that writes the whole structure to the descriptor does so. -/
theorem exists_effect_of_fullSizeTo {call : HandlerCall} {cFd : ℕ}
    (h : call.FullSizeTo cFd) :
    ∃ e ∈ call.effects, e.fd = cFd ∧ e.bytes.length = sizeofMsgData := by
  obtain ⟨enMsgType, s, pstData, pcDesName, srcFd⟩ := call
  cases enMsgType with
  | addFriend =>
      rw [HandlerCall.effects, astProcClientOptFunc, effects_procAddFriendMsg]
      exact ⟨_, mem_checked.mpr (.inl ⟨h.2, rfl⟩), h.1, MsgData.length_toBytes _⟩
  | delFriend =>
      rw [HandlerCall.effects, astProcClientOptFunc, effects_procDelFriendMsg]
      exact ⟨_, mem_checked.mpr (.inl ⟨h.2, rfl⟩), h.1, MsgData.length_toBytes _⟩
  | sendOne =>
      rw [HandlerCall.effects, astProcClientOptFunc, effects_procSendMsg2One]
      exact ⟨_, mem_checked.mpr (.inl ⟨h.2, rfl⟩), h.1, MsgData.length_toBytes _⟩
  | sendFile =>
      obtain ⟨p, hfound, hfd⟩ := h
      simp only at hfound
      rw [HandlerCall.effects, astProcClientOptFunc, effects_procSendFile2One, hfound]
      exact ⟨_, List.mem_singleton_self _, hfd, MsgData.length_toBytes _⟩
  | _ => exact h.elim

/-! ## What the client decodes -/

/-- Cut into records as long as the client's reads, the stream is dispatched as the
frames that were written, record by record and with nothing left over. -/
def ReceivedAsWritten (frames : List Bytes) : Prop :=
  (cut recvSize frames.flatten).map (fun record => dispatchRecord (MsgData.ofBytes record)) =
    frames.map fun frame => dispatchRecord (MsgData.ofBytes frame)

theorem receivedAsWritten_iff_length {frames : List Bytes}
    (hle : ∀ frame ∈ frames, recvSize ≤ frame.length) :
    ReceivedAsWritten frames ↔ ∀ frame ∈ frames, frame.length = recvSize := by
  constructor
  · intro h
    have hcount := congrArg List.length h
    rw [List.length_map, List.length_map] at hcount
    exact (length_cut_flatten_iff (by decide) hle).mp hcount
  · intro h
    rw [ReceivedAsWritten, cut_flatten (by decide) h]

/-- The client receives what the handlers wrote to its socket exactly if they refused
none of its requests and relayed no file to it: those frames are one byte longer than
the client's reads. -/
theorem receivedAsWritten_iff (cFd : ℕ) (calls : List HandlerCall)
    (hban : ∀ call ∈ calls, call.enMsgType ≠ .banOne) :
    ReceivedAsWritten (framesTo calls cFd) ↔ ∀ call ∈ calls, ¬ call.FullSizeTo cFd := by
  have hlength : ∀ frame ∈ framesTo calls cFd, frame.length = recvSize ∨
      frame.length = sizeofMsgData ∧ ∃ call ∈ calls, call.FullSizeTo cFd := by
    intro frame hframe
    obtain ⟨call, hcall, hframe⟩ := List.mem_flatMap.mp hframe
    obtain ⟨e, he, rfl, rfl⟩ := mem_framesTo.mp hframe
    exact (length_of_mem_effects (hban call hcall) he).imp_right
      fun ⟨hlen, hfull⟩ => ⟨hlen, call, hcall, hfull⟩
  have hle : ∀ frame ∈ framesTo calls cFd, recvSize ≤ frame.length := by
    intro frame hframe
    rcases hlength frame hframe with hlen | ⟨hlen, -⟩
    · exact hlen.ge
    · rw [hlen]
      decide
  rw [receivedAsWritten_iff_length hle]
  constructor
  · intro h call hcall hfull
    obtain ⟨e, he, hfd, hlen⟩ := exists_effect_of_fullSizeTo hfull
    have hshort := h e.bytes
      (List.mem_flatMap.mpr ⟨call, hcall, mem_framesTo.mpr ⟨e, he, hfd, rfl⟩⟩)
    exact absurd (hlen.symm.trans hshort) (by decide)
  · intro h frame hframe
    rcases hlength frame hframe with hlen | ⟨-, call, hcall, hfull⟩
    · exact hlen
    · exact absurd hfull (h call hcall)

/-- "a" and "b", friends of each other, are online on descriptors 6 and 5. -/
def friendsOnline : ServerState :=
  ⟨Mysql.reference, ⟨[], [(utf8 "a", utf8 "b"), (utf8 "b", utf8 "a")], []⟩,
    [⟨lit "b", 5⟩, ⟨lit "a", 6⟩], .midnight⟩

/-- "a" writes to all and to "b"; "b" sends a file to somebody who is offline, and gives up the
friendship with "a". -/
def mixedCalls : List HandlerCall :=
  [⟨.sendAll, friendsOnline, MsgData.make .sendAll (lit "a") (lit "") (lit "hello"), lit "", 6⟩,
    ⟨.sendOne, friendsOnline, MsgData.make .sendOne (lit "a") (lit "b") (lit "you"), lit "b", 6⟩,
    ⟨.sendFile, friendsOnline, MsgData.make .sendFile (lit "b") (lit "c") (lit ""), lit "c", 5⟩,
    ⟨.delFriend, friendsOnline, MsgData.make .delFriend (lit "b") (lit "a") (lit ""), lit "a", 5⟩]

theorem receivedAsWritten_mixedCalls : ReceivedAsWritten (framesTo mixedCalls 5) := by
  refine (receivedAsWritten_iff 5 mixedCalls (by decide)).mpr fun call hcall hfull => ?_
  simp only [mixedCalls, List.mem_cons, List.not_mem_nil, or_false] at hcall
  rcases hcall with rfl | rfl | rfl | rfl
  · exact hfull
  · exact absurd hfull.1 (by decide)
  · obtain ⟨pSearchNode, hfound, -⟩ := hfull
    cases hfound
  · exact absurd hfull.2 (by decide +kernel)

/-- "a" writes to a stranger: the refusal is read as two records. -/
theorem not_receivedAsWritten :
    ¬ ∀ (cFd : ℕ) (calls : List HandlerCall), (∀ call ∈ calls, call.enMsgType ≠ .banOne) →
      ReceivedAsWritten (framesTo calls cFd) := by
  intro h
  let calls : List HandlerCall :=
    [{ enMsgType := .sendOne
       s := ⟨Mysql.reference, ⟨[], [], []⟩, [], ⟨0, 0, 0⟩⟩
       pstData := MsgData.make .sendOne (lit "a") (lit "b") (lit "hello")
       pcDesName := lit "b"
       srcFd := 6 }]
  have hrecords : (cut recvSize (framesTo calls 6).flatten).length = 2 := by decide +kernel
  have hframes : (framesTo calls 6).length = 1 := by decide +kernel
  have hcount := congrArg List.length (h 6 calls (by decide))
  rw [List.length_map, List.length_map, hrecords, hframes] at hcount
  exact absurd hcount (by decide)

end ChatRoom
