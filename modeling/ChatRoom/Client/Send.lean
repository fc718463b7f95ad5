import ChatRoom.Client.File

/-!
# Requests of the client

The functions of `client_send.c` and the dispatch of `client_daemon.c`, as far as
they write to the server.  One structure, `pClientData`, serves all requests: each
function fills in its fields and leaves the others as they were.
-/

namespace ChatRoom

open CString Framing

/-- A name that fits an array of `MAX_NAME_LEN + 1` characters with its terminator. -/
abbrev Name := { s : CStr // s.strlen ≤ maxNameLen }

/-- A line that fits a buffer of `MAX_WORD_LEN + 1` characters with its terminator. -/
abbrev Line := { s : CStr // s.strlen ≤ maxWordLen }

/-- A name that fits `recvName` of `sendFile2One`. -/
abbrev RecvName := { s : CStr // s.strlen ≤ 15 }

/-- A command of the file dialogue, with the files of the working directory at the
time. -/
structure FtpCommand where
  command : Name
  files : Files

/-- What the user asks for, with everything typed in the dialogue of that request. -/
inductive Request where
  | showAll
  | showFriend
  | addFriend (desName : Name)
  | delFriend (desName : Name)
  | sendOne (desName : Name) (lines : List Line)
  | sendAll (lines : List Line)
  | sendFile (recvName : RecvName) (commands : List FtpCommand)

def Request.enMsgType : Request → MsgType
  | showAll => .showAll
  | showFriend => .showFriend
  | addFriend _ => .addFriend
  | delFriend _ => .delFriend
  | sendOne _ _ => .sendOne
  | sendAll _ => .sendAll
  | sendFile _ _ => .sendFile

/-- `strcpy` to `desName`. -/
def MsgData.setDesName (msg : MsgData) (desName : CStr) : MsgData :=
  let head := msg.stMsgHead
  { msg with stMsgHead := { head with desName := head.desName.strcpy desName } }

/-! ## The send functions -/

def sendShowAllMsg (pstClientMsg : MsgData) : MsgData × List ClientWrite :=
  (pstClientMsg, [⟨pstClientMsg, sizeofMsgData⟩])

def sendShowFriendMsg (pstClientMsg : MsgData) : MsgData × List ClientWrite :=
  (pstClientMsg, [⟨pstClientMsg, sizeofMsgData⟩])

/-- The body shared by `sendAddFriendMsg` and `sendDelFriendMsg`. -/
def sendNamed (pstClientMsg : MsgData) (desName : Name) : MsgData × List ClientWrite :=
  let msg := pstClientMsg.setDesName desName
  if desName.val = lit "exit" then (msg, []) else (msg, [⟨msg, sizeofMsgData⟩])

def sendAddFriendMsg (pstClientMsg : MsgData) (desName : Name) :
    MsgData × List ClientWrite :=
  sendNamed pstClientMsg desName

def sendDelFriendMsg (pstClientMsg : MsgData) (desName : Name) :
    MsgData × List ClientWrite :=
  sendNamed pstClientMsg desName

/-- The loop of the two chat dialogues: each line is written with the same count, up
to the line "exit". -/
def sendLines (count : ℕ) : MsgData → List Line → MsgData × List ClientWrite
  | pstClientMsg, [] => (pstClientMsg, [])
  | pstClientMsg, pcMsg :: rest =>
      let cleared := pstClientMsg.clearBody
      if pcMsg.val = lit "exit" then (cleared, [])
      else
        let msg := cleared.copyText pcMsg
        let next := sendLines count msg rest
        (next.1, ⟨msg, count⟩ :: next.2)

def sendMsg2One (pstClientMsg : MsgData) (desName : Name) (lines : List Line) :
    MsgData × List ClientWrite :=
  let msg := pstClientMsg.setDesName desName
  if desName.val = lit "exit" then (msg, []) else sendLines sizeofMsgData msg lines

def sendMsg2All (pstClientMsg : MsgData) (lines : List Line) :
    MsgData × List ClientWrite :=
  sendLines (sizeofMsgHead + maxWordLen) pstClientMsg lines

/-- The loop of `sendFile2One`. -/
def ftpLoop : MsgData → List FtpCommand → MsgData × List ClientWrite
  | pstClientMsg, [] => (pstClientMsg, [])
  | pstClientMsg, ⟨command, files⟩ :: rest =>
      if command.val = lit "exit" then (pstClientMsg, [])
      else if command.val = lit "ls" then ftpLoop pstClientMsg rest
      else
        let pResult := mySplit command 32
        if pResult.1 = lit "put" then
          let sent := doSendFile pstClientMsg pResult.2 files
          let next := ftpLoop sent.1 rest
          (next.1, sent.2 ++ next.2)
        -- "cd" shows in the files that the next command sees
        else ftpLoop pstClientMsg rest

def sendFile2One (pstClientMsg : MsgData) (recvName : RecvName)
    (commands : List FtpCommand) : MsgData × List ClientWrite :=
  if recvName.val = lit "exit" then (pstClientMsg, [])
  else ftpLoop (pstClientMsg.setDesName recvName) commands

/-- `dispatchMsg`, through the table `astClientOptFunc`. -/
def dispatchMsg (pClientData : MsgData) : Request → MsgData × List ClientWrite
  | .showAll => sendShowAllMsg pClientData
  | .showFriend => sendShowFriendMsg pClientData
  | .addFriend desName => sendAddFriendMsg pClientData desName
  | .delFriend desName => sendDelFriendMsg pClientData desName
  | .sendOne desName lines => sendMsg2One pClientData desName lines
  | .sendAll lines => sendMsg2All pClientData lines
  | .sendFile recvName commands => sendFile2One pClientData recvName commands

/-- `dispatchClientRequest`: the writes of a sequence of requests. -/
def dispatchClientRequest : MsgData → List Request → List ClientWrite
  | _, [] => []
  | pClientData, request :: rest =>
      let head := pClientData.stMsgHead
      let msg : MsgData := { pClientData with
        stMsgHead := { head with enMsgType := request.enMsgType.code } }
      let sent := dispatchMsg msg.clearBody request
      sent.2 ++ dispatchClientRequest sent.1 rest

/-! ## Framing -/

/-- The bytes on the connection. -/
def streamOf (writes : List ClientWrite) : Bytes := (writes.map ClientWrite.bytes).flatten

/-- Cut into records as long as the server's reads, the stream has a full record for
each message, and the record decodes to that message. -/
def FramedForServer (writes : List ClientWrite) : Prop :=
  ∀ i (h : i < writes.length), ∃ record,
    (cut sizeofMsgData (streamOf writes))[i]? = some record ∧
      record.length = sizeofMsgData ∧ MsgData.ofBytes record = writes[i].msg

/-- The request sends no line to the group. -/
def Request.noGroupLine : Request → Prop
  | sendAll lines => lines.takeWhile (·.val ≠ lit "exit") = []
  | _ => True

/-- The stream is framed for the server exactly if every write has the full size. -/
theorem framedForServer_iff_count {writes : List ClientWrite}
    (hcount : ∀ w ∈ writes, w.count ≤ sizeofMsgData) :
    FramedForServer writes ↔ ∀ w ∈ writes, w.count = sizeofMsgData := by
  have hle : ∀ b ∈ writes.map ClientWrite.bytes, b.length ≤ sizeofMsgData := by
    intro b hb
    obtain ⟨w, -, rfl⟩ := List.mem_map.mp hb
    rw [w.length_bytes]
    exact min_le_right _ _
  constructor
  · intro h w hw
    have hfull : ∀ i < (writes.map ClientWrite.bytes).length, ∃ r,
        (cut sizeofMsgData (streamOf writes))[i]? = some r ∧ r.length = sizeofMsgData := by
      intro i hi
      obtain ⟨record, hrecord, hlen, -⟩ := h i (by simpa using hi)
      exact ⟨record, hrecord, hlen⟩
    have hlen := (fullRecords_iff (by decide) hle).mp hfull w.bytes (List.mem_map_of_mem hw)
    rw [w.length_bytes] at hlen
    exact le_antisymm (hcount w hw) (min_eq_right_iff.mp hlen)
  · intro h i hi
    have hblocks : ∀ b ∈ writes.map ClientWrite.bytes, b.length = sizeofMsgData := by
      intro b hb
      obtain ⟨w, hw, rfl⟩ := List.mem_map.mp hb
      exact length_bytes_of_count (h w hw)
    have hw := h writes[i] (List.getElem_mem hi)
    refine ⟨writes[i].bytes, ?_, length_bytes_of_count hw, ofBytes_bytes_of_count hw⟩
    rw [streamOf, cut_flatten (by decide) hblocks, List.getElem?_map,
      List.getElem?_eq_getElem hi, Option.map_some]

/-! ## The byte counts of the send functions -/

/-- The byte count with which the function for the request writes. -/
def Request.count : Request → ℕ
  | sendAll _ => sizeofMsgHead + maxWordLen
  | _ => sizeofMsgData

theorem count_of_mem_doSendFile {msg : MsgData} {pcFilePath : CStr} {files : Files}
    {w : ClientWrite} (hw : w ∈ (doSendFile msg pcFilePath files).2) :
    w.count = sizeofMsgData := by
  rw [doSendFile] at hw
  split at hw
  · exact absurd hw List.not_mem_nil
  · rw [snd_sendFileLoop] at hw
    obtain ⟨frame, -, rfl⟩ := List.mem_map.mp hw
    rfl

theorem count_of_mem_ftpLoop {msg : MsgData} {commands : List FtpCommand} {w : ClientWrite}
    (hw : w ∈ (ftpLoop msg commands).2) : w.count = sizeofMsgData := by
  induction commands generalizing msg with
  | nil => exact absurd hw List.not_mem_nil
  | cons c rest ih =>
      simp only [ftpLoop] at hw
      split_ifs at hw
      · exact absurd hw List.not_mem_nil
      · exact ih hw
      · rcases List.mem_append.mp hw with hw | hw
        · exact count_of_mem_doSendFile hw
        · exact ih hw
      · exact ih hw

theorem count_of_mem_sendLines {count : ℕ} {msg : MsgData} {lines : List Line}
    {w : ClientWrite} (hw : w ∈ (sendLines count msg lines).2) : w.count = count := by
  induction lines generalizing msg with
  | nil => exact absurd hw List.not_mem_nil
  | cons pcMsg rest ih =>
      simp only [sendLines] at hw
      split_ifs at hw
      · exact absurd hw List.not_mem_nil
      · rcases List.mem_cons.mp hw with rfl | hw
        · rfl
        · exact ih hw

theorem count_of_mem_sendNamed {msg : MsgData} {desName : Name} {w : ClientWrite}
    (hw : w ∈ (sendNamed msg desName).2) : w.count = sizeofMsgData := by
  simp only [sendNamed] at hw
  split_ifs at hw
  · exact absurd hw List.not_mem_nil
  · rw [List.mem_singleton.mp hw]

theorem count_of_mem_dispatchMsg {msg : MsgData} {request : Request} {w : ClientWrite}
    (hw : w ∈ (dispatchMsg msg request).2) : w.count = request.count := by
  cases request with
  | showAll | showFriend =>
      rw [List.mem_singleton.mp hw]
      rfl
  | addFriend desName | delFriend desName => exact count_of_mem_sendNamed hw
  | sendOne desName lines =>
      simp only [dispatchMsg, sendMsg2One] at hw
      split_ifs at hw
      · exact absurd hw List.not_mem_nil
      · exact count_of_mem_sendLines hw
  | sendAll lines => exact count_of_mem_sendLines hw
  | sendFile recvName commands =>
      simp only [dispatchMsg, sendFile2One] at hw
      split_ifs at hw
      · exact absurd hw List.not_mem_nil
      · exact count_of_mem_ftpLoop hw

/-- The group dialogue writes something exactly if its first line is not "exit". -/
theorem snd_sendLines_eq_nil_iff (count : ℕ) (msg : MsgData) (lines : List Line) :
    (sendLines count msg lines).2 = [] ↔ lines.takeWhile (·.val ≠ lit "exit") = [] := by
  cases lines with
  | nil => simp [sendLines]
  | cons pcMsg rest =>
      by_cases h : pcMsg.val = lit "exit" <;> simp [sendLines, h]

/-- A request is written in full size exactly if it sends no line to the group. -/
theorem count_dispatchMsg_iff (msg : MsgData) (request : Request) :
    (∀ w ∈ (dispatchMsg msg request).2, w.count = sizeofMsgData) ↔ request.noGroupLine := by
  cases request with
  | sendAll lines =>
      rw [Request.noGroupLine, ← snd_sendLines_eq_nil_iff (sizeofMsgHead + maxWordLen) msg]
      constructor
      · intro h
        refine List.eq_nil_iff_forall_not_mem.mpr fun w hw => ?_
        have hfull := h w hw
        rw [count_of_mem_sendLines hw] at hfull
        exact absurd hfull (by decide)
      · intro h w hw
        rw [dispatchMsg, sendMsg2All, h] at hw
        exact absurd hw List.not_mem_nil
  | _ => exact ⟨fun _ => trivial, fun _ w hw => count_of_mem_dispatchMsg hw⟩

theorem count_dispatchClientRequest_iff (msg : MsgData) (requests : List Request) :
    (∀ w ∈ dispatchClientRequest msg requests, w.count = sizeofMsgData) ↔
      ∀ request ∈ requests, request.noGroupLine := by
  induction requests generalizing msg with
  | nil => simp [dispatchClientRequest]
  | cons request rest ih =>
      simp only [dispatchClientRequest, List.forall_mem_append, List.forall_mem_cons,
        count_dispatchMsg_iff, ih]

theorem count_le_of_mem {msg : MsgData} {requests : List Request} {w : ClientWrite}
    (hw : w ∈ dispatchClientRequest msg requests) : w.count ≤ sizeofMsgData := by
  induction requests generalizing msg with
  | nil => exact absurd hw List.not_mem_nil
  | cons request rest ih =>
      rcases List.mem_append.mp hw with hw | hw
      · rw [count_of_mem_dispatchMsg hw]
        cases request <;> exact Nat.le_of_ble_eq_true rfl
      · exact ih hw

/-! ## What the server decodes -/

/-- Every record the server reads is the message that was sent, exactly if no line was
sent to the group: the group dialogue writes one byte less than the server reads. -/
theorem framedForServer_iff (pClientData : MsgData) (requests : List Request) :
    FramedForServer (dispatchClientRequest pClientData requests) ↔
      ∀ request ∈ requests, request.noGroupLine :=
  (framedForServer_iff_count fun _ hw => count_le_of_mem hw).trans
    (count_dispatchClientRequest_iff pClientData requests)

/-- After one line to the group, the next request is read one byte late. -/
theorem not_framedForServer :
    ¬ ∀ (pClientData : MsgData) (requests : List Request),
      FramedForServer (dispatchClientRequest pClientData requests) := by
  intro h
  let writes := dispatchClientRequest (MsgData.ofBytes [])
    [.sendAll [⟨lit "hello", by decide⟩], .showFriend, .showFriend]
  have hread : ((cut sizeofMsgData (streamOf writes))[1]?).map
      (fun record => (MsgData.ofBytes record).stMsgHead.enMsgType) =
        some MsgType.showAll.code := by
    decide +kernel
  obtain ⟨record, hrecord, -, hdecoded⟩ := h (MsgData.ofBytes [])
    [.sendAll [⟨lit "hello", by decide⟩], .showFriend, .showFriend] 1 (by decide)
  rw [hrecord, Option.map_some, hdecoded] at hread
  exact absurd hread (by decide +kernel)

end ChatRoom
