import ChatRoom.Client.FileReceiver
import ChatRoom.Client.Receive

/-!
# A file on its way through the server

The frames that `doSendFile` writes go through the server loop and `procSendFile2One`
to the receiving thread of the destination, one frame for each read.
-/

namespace ChatRoom

open CString Framing

/-- The receiving thread reads each relayed frame, and its file system gives the same answer to
all of them. -/
def receiveAll (pcName : CStr) (answer : FileAnswer) (state : RecvState) (frames : List Bytes) :
    RecvState :=
  frames.foldl (fun state frame => clientProcRecvMsg state pcName frame answer.io) state

/-- The loop for the sender's descriptor reads each write, and what it writes to the
receiver's descriptor is received.  `io` has the answers of the receiver's file system, one for
each write. -/
def transferFile (s : ServerState) (cFd rFd : ℕ) (pcName : CStr) :
    (io : ℕ → FileAnswer) → RecvState → List ClientWrite → RecvState
  | _, state, [] => state
  | io, state, w :: rest =>
      let effects := (procClientRequest s cFd (MsgData.ofBytes w.bytes)).effects
      let frames := (effects.filter (·.fd = rFd)).map Effect.bytes
      transferFile s cFd rFd pcName (fun i => io (i + 1)) (receiveAll pcName (io 0) state frames)
        rest

theorem transferFile_append (s : ServerState) (cFd rFd : ℕ) (pcName : CStr) (io : ℕ → FileAnswer)
    (state : RecvState) (first second : List ClientWrite) :
    transferFile s cFd rFd pcName io state (first ++ second) =
      transferFile s cFd rFd pcName (fun i => io (first.length + i))
        (transferFile s cFd rFd pcName io state first) second := by
  induction first generalizing io state with
  | nil => simp only [List.nil_append, List.length_nil, Nat.zero_add, transferFile]
  | cons w rest ih =>
      have hshift : ∀ i, rest.length + i + 1 = rest.length + 1 + i := fun i => by omega
      simp only [List.cons_append, transferFile, ih, List.length_cons, hshift]

/-- What a file needs to arrive: it is not empty, no piece of it reads as the string
"exit", and the receiver's last-chunk rule keeps its last piece. -/
structure Transferable (filename : CStr) (content : Bytes) : Prop where
  nonempty : content ≠ []
  noExit : ∀ chunk ∈ cut maxWordLen content, cstr chunk ≠ lit "exit"
  lastKept : ∀ chunk ∈ (cut maxWordLen content).getLast?, LastPieceKept filename chunk

/-! ## One frame -/

theorem pDataStr_chunkMsg (head : MsgHead) {chunk : Bytes} (h : chunk.length ≤ maxWordLen) :
    (chunkMsg head chunk).pDataStr = cstr chunk :=
  cstr_paddedChunk h

/-- The byte that the client does not read is a zero of the padding. -/
theorem ofBytes_take_chunkMsg (head : MsgHead) {chunk : Bytes}
    (h : chunk.length ≤ maxWordLen) :
    MsgData.ofBytes ((chunkMsg head chunk).toBytes.take recvSize) = chunkMsg head chunk := by
  rw [recvSize, MsgData.ofBytes_take]
  exact congrArg (MsgData.mk head) (ofBytes_paddedChunk h)

/-- At the receiver a relayed frame goes to `doRecvFile` unchanged. -/
theorem receive_chunkMsg {head : MsgHead} (htype : head.enMsgType = MsgType.sendFile.code)
    {chunk : Bytes} (h : chunk.length ≤ maxWordLen) (pcName : CStr) (state : RecvState)
    (io : FileIo) :
    clientProcRecvMsg state pcName (chunkMsg head chunk).toBytes io =
      doRecvFile state (chunkMsg head chunk) pcName io := by
  have hbranch : recvBranch (chunkMsg head chunk).stMsgHead.enMsgType = .doRecvFile :=
    if_pos htype
  rw [clientProcRecvMsg, ofBytes_take_chunkMsg head h]
  simp only [hbranch]

/-- The frames that come to `doRecvFile`, with the answers they meet: those of the pieces that do
not read as "exit". -/
def answered (head : MsgHead) : (io : ℕ → FileAnswer) → List Bytes → List FileFrame
  | _, [] => []
  | io, chunk :: rest =>
      if cstr chunk = lit "exit" then answered head (fun i => io (i + 1)) rest
      else ⟨chunkMsg head chunk, (io 0).io⟩ :: answered head (fun i => io (i + 1)) rest

section
variable {s : ServerState} {cFd : ℕ} {pDestNode : Node} {head : MsgHead} {pcName : CStr}
  (htype : head.enMsgType = MsgType.sendFile.code) (hdes : head.desName.Holds pcName)
  (honline : searchName s.g_pList pcName = some pDestNode)
include htype hdes honline

/-- The loop passes over a frame that reads "exit" and relays any other. -/
theorem effects_chunkMsg {chunk : Bytes} (h : chunk.length ≤ maxWordLen) :
    (procClientRequest s cFd (chunkMsg head chunk)).effects =
      if cstr chunk = lit "exit" then []
      else [.relay pDestNode (chunkMsg head chunk).toBytes] := by
  have hdes' : (chunkMsg head chunk).desNameStr = pcName :=
    MsgData.desNameStr_of_holds hdes
  have hcode : MsgType.ofCode? (chunkMsg head chunk).stMsgHead.enMsgType = some .sendFile := by
    rw [chunkMsg, htype, MsgType.ofCode?_code]
  rw [procClientRequest, pDataStr_chunkMsg head h]
  by_cases hexit : cstr chunk = lit "exit"
  · rw [if_pos hexit, if_pos hexit, LoopTurn.effects]
    exact fun _ _ => LoopTurn.noConfusion
  · rw [if_neg hexit, if_neg hexit]
    simp only [hcode, LoopTurn.effects, astProcClientOptFunc, effects_procSendFile2One, hdes',
      honline]

/-- The frames that are not passed over arrive in order. -/
theorem transferFile_chunks {chunks : List Bytes} (hle : ∀ c ∈ chunks, c.length ≤ maxWordLen)
    (io : ℕ → FileAnswer) (state : RecvState) :
    transferFile s cFd pDestNode.sfd pcName io state
        ((chunks.map (chunkMsg head)).map fun frame => ⟨frame, sizeofMsgData⟩) =
      recvFrames pcName state (answered head io chunks) := by
  induction chunks generalizing io state with
  | nil => rfl
  | cons chunk rest ih =>
      have hchunk := hle chunk List.mem_cons_self
      have hread : MsgData.ofBytes
          (ClientWrite.mk (chunkMsg head chunk) sizeofMsgData).bytes = chunkMsg head chunk :=
        ofBytes_bytes_of_count rfl
      have hrest := ih (fun c hc => hle c (List.mem_cons_of_mem _ hc)) fun i => io (i + 1)
      rw [List.map_cons, List.map_cons, transferFile, hread,
        effects_chunkMsg htype hdes honline hchunk]
      by_cases hexit : cstr chunk = lit "exit"
      · rw [answered, if_pos hexit, if_pos hexit]
        exact hrest state
      · have hone : receiveAll pcName (io 0) state
            ((List.filter (fun e => decide (e.fd = pDestNode.sfd))
              [Effect.relay pDestNode (chunkMsg head chunk).toBytes]).map Effect.bytes) =
              doRecvFile state (chunkMsg head chunk) pcName (io 0).io := by
          simp only [Effect.fd, decide_true, List.filter_cons_of_pos, List.filter_nil,
            List.map_cons, List.map_nil, Effect.bytes, receiveAll, List.foldl_cons,
            List.foldl_nil]
          exact receive_chunkMsg htype hchunk pcName state _
        rw [answered, if_neg hexit, if_neg hexit]
        simp only [hone]
        exact hrest _

end

/-! ## How much arrives -/

/-- The most bytes that an answer lets into the file. -/
def FileIo.room : FileIo → ℕ
  | .fopenFails => 0
  | .fwrites limit => min limit maxWordLen

/-- A frame adds no more bytes to a file than the answer lets in. -/
theorem length_doRecvFile_le (state : RecvState) (msg : MsgData) (pcName path : CStr)
    (io : FileIo) :
    (((doRecvFile state msg pcName io).files path).getD []).length ≤
      ((state.files path).getD []).length + io.room := by
  by_cases hsrc : msg.srcNameStr = pcName
  · rw [doRecvFile_reply hsrc]
    omega
  · cases io with
    | fopenFails =>
        rw [doRecvFile_fopenFails]
        omega
    | fwrites limit =>
        rw [doRecvFile_fwrites hsrc, FileIo.room]
        dsimp only
        by_cases hpath : path = msg.filenameStr
        · subst hpath
          have hle := chunkLength_le msg.filenameStr (length_fileBuf msg)
            (isLastChunk msg.stMsgHead.filesize state.filePacketNum)
          rw [Files.append_self, Option.getD_some, List.length_append, List.length_take]
          omega
        · rw [Files.append_of_ne hpath]
          omega

theorem length_recvFrames_le (pcName path : CStr) (state : RecvState) (frames : List FileFrame) :
    (((recvFrames pcName state frames).files path).getD []).length ≤
      ((state.files path).getD []).length + (frames.map (·.io.room)).sum := by
  induction frames generalizing state with
  | nil => simp [recvFrames]
  | cons f rest ih =>
      have hone := length_doRecvFile_le state f.msg pcName path f.io
      have hrest := ih (doRecvFile state f.msg pcName f.io)
      rw [recvFrames, List.foldl_cons, List.map_cons, List.sum_cons]
      rw [recvFrames] at hrest
      omega

theorem FileAnswer.room_le (answer : FileAnswer) : answer.io.room ≤ 255 := by
  cases answer <;> decide

theorem sum_room_answered_le (head : MsgHead) (io : ℕ → FileAnswer) (chunks : List Bytes) :
    ((answered head io chunks).map (·.io.room)).sum ≤ 255 * chunks.length := by
  induction chunks generalizing io with
  | nil => rfl
  | cons chunk rest ih =>
      have hrest := ih fun i => io (i + 1)
      have hone := (io 0).room_le
      rw [answered]
      split_ifs
      · rw [List.length_cons]
        omega
      · rw [List.map_cons, List.sum_cons, List.length_cons]
        dsimp only
        omega

/-- Every piece comes to a file that takes it. -/
def AllWritten (io : ℕ → FileAnswer) (chunks : List Bytes) : Prop :=
  (∀ chunk ∈ chunks, cstr chunk ≠ lit "exit") ∧ ∀ i < chunks.length, io i = .written

theorem allWritten_cons {io : ℕ → FileAnswer} {chunk : Bytes} {rest : List Bytes} :
    AllWritten io (chunk :: rest) ↔
      cstr chunk ≠ lit "exit" ∧ io 0 = .written ∧ AllWritten (fun i => io (i + 1)) rest := by
  have hindex : (∀ i < (chunk :: rest).length, io i = .written) ↔
      io 0 = .written ∧ ∀ i < rest.length, io (i + 1) = .written := by
    rw [List.length_cons, Nat.forall_lt_succ_left]
  rw [AllWritten, AllWritten, List.forall_mem_cons, hindex]
  tauto

theorem answered_eq_arriving (head : MsgHead) {io : ℕ → FileAnswer} {chunks : List Bytes}
    (h : AllWritten io chunks) : answered head io chunks = arriving head chunks := by
  induction chunks generalizing io with
  | nil => rfl
  | cons chunk rest ih =>
      obtain ⟨hexit, hfirst, hrest⟩ := allWritten_cons.mp h
      rw [answered, if_neg hexit, ih hrest, hfirst]
      rfl

/-- A piece that is not written takes a whole frame's bytes from the file. -/
theorem sum_room_answered_lt (head : MsgHead) {io : ℕ → FileAnswer} {chunks : List Bytes}
    (h : ¬ AllWritten io chunks) :
    ((answered head io chunks).map (·.io.room)).sum + 255 ≤ 255 * chunks.length := by
  induction chunks generalizing io with
  | nil =>
      refine absurd ⟨?_, ?_⟩ h
      · exact List.forall_mem_nil _
      · exact fun i hi => absurd hi (Nat.not_lt_zero i)
  | cons chunk rest ih =>
      have hall := sum_room_answered_le head (fun i => io (i + 1)) rest
      rw [answered, List.length_cons]
      split_ifs with hexit
      · omega
      · rw [List.map_cons, List.sum_cons]
        dsimp only
        by_cases hfirst : io 0 = .written
        · have hrest := ih fun hrest => h (allWritten_cons.mpr ⟨hexit, hfirst, hrest⟩)
          have hone := (io 0).room_le
          omega
        · have hnone : (io 0).io.room = 0 := by
            cases hanswer : io 0 with
            | written => exact absurd hanswer hfirst
            | fopenFails | fwriteFails => rfl
          omega

/-! ## The whole transfer -/

/-- From `doSendFile` to `doRecvFile`: the frames that are not passed over arrive. -/
theorem transferFile_doSendFile {s : ServerState} {pDestNode : Node} {buf : MsgData}
    {pcName path : CStr} {senderFiles : Files} {content : Bytes}
    (htype : buf.stMsgHead.enMsgType = MsgType.sendFile.code)
    (hdes : buf.stMsgHead.desName.Holds pcName)
    (honline : searchName s.g_pList pcName = some pDestNode)
    (hfile : senderFiles path = some content) (cFd : ℕ) (io : ℕ → FileAnswer)
    (state : RecvState) :
    transferFile s cFd pDestNode.sfd pcName io state (doSendFile buf path senderFiles).2 =
      recvFrames pcName state
        (answered (buf.stMsgHead.forFile path content) io (cut maxWordLen content)) := by
  have htype' : (buf.stMsgHead.forFile path content).enMsgType = MsgType.sendFile.code := htype
  have hdes' : (buf.stMsgHead.forFile path content).desName.Holds pcName := hdes
  rw [← transferFile_chunks htype' hdes' honline fun _ => length_le_of_mem_cut]
  exact congrArg _ (snd_doSendFile hfile)

theorem length_cut_bounds {content : Bytes} (hne : content ≠ []) :
    255 * (cut maxWordLen content).length < content.length + 255 ∧
      content.length ≤ 255 * (cut maxWordLen content).length := by
  have hpos : 0 < content.length := List.length_pos_iff.mpr hne
  rw [length_cut]
  simp only [maxWordLen]
  omega

section
variable {head : MsgHead} {pcName src path : CStr} {content : Bytes} {files : Files}
  (hnew : files path = none)
include hnew

/-- A file of which a piece is not written does not arrive. -/
theorem not_received_of_missing {io : ℕ → FileAnswer}
    (hmissing : ¬ AllWritten io (cut maxWordLen content)) :
    (recvFrames pcName ⟨files, 0⟩ (answered head io (cut maxWordLen content))).files path ≠
      some content := by
  intro hcontent
  have hne : content ≠ [] := by
    rintro rfl
    rw [cut_nil] at hcontent
    exact absurd (hnew.symm.trans hcontent) (by simp)
  have hbound := (length_cut_bounds hne).1
  have hshort := sum_room_answered_lt head hmissing
  have hlen := length_recvFrames_le pcName path ⟨files, 0⟩
    (answered head io (cut maxWordLen content))
  simp only [hcontent, hnew, Option.getD_some, Option.getD_none, List.length_nil] at hlen
  omega

variable (hsrc : head.srcName.Holds src) (hother : src ≠ pcName)
  (hpath : head.filename.Holds path)
  (hsize : head.filesize = BitVec.ofNat 32 content.length)
  (hn : content.length < 2 ^ 31 - 255)
include hsrc hother hpath hsize hn

/-- If all frames arrive, the receiver has the file exactly if it keeps the last piece, and the
counter is back at 0. -/
theorem received_iff_lastKept (hne : content ≠ []) :
    ((recvFrames pcName ⟨files, 0⟩ (arriving head (cut maxWordLen content))).files path =
          some content ↔
        ∀ chunk ∈ (cut maxWordLen content).getLast?, LastPieceKept path chunk) ∧
      (recvFrames pcName ⟨files, 0⟩
        (arriving head (cut maxWordLen content))).filePacketNum = 0 := by
  obtain ⟨hlast, hcover⟩ := length_cut_bounds hne
  have hdone : recvFrames pcName ⟨files, 0⟩ (arriving head (cut maxWordLen content)) =
      ⟨files.append path (storedPieces path (cut maxWordLen content)), 0⟩ :=
    recvFrames_complete hsrc hother hpath hsize (i := 0) (cut_ne_nil (by decide) hne)
      (by omega) (by omega) hn files
  rw [hdone, ← storedPieces_eq_flatten_iff
    (fun _ => length_of_mem_dropLast_cut (by decide)) (fun _ => length_le_of_mem_cut),
    flatten_cut (by decide)]
  simp only [Files.append_self, hnew, Option.getD_none, List.nil_append, Option.some.injEq,
    and_true]

end

/-- The files are served: the sender's `fopen` opens the file, and at the receiver no file
operation for one of its frames fails. -/
structure FilesServed (senderFiles : Files) (path : CStr) (content : Bytes)
    (io : ℕ → FileAnswer) : Prop where
  opened : senderFiles path = some content
  written : ∀ i < (cut maxWordLen content).length, io i = .written

section
variable {s : ServerState} {cFd : ℕ} {pDestNode : Node} {buf : MsgData}
  {src pcName path : CStr} {senderFiles : Files} {content : Bytes} {io : ℕ → FileAnswer}
  {state : RecvState}
  (htype : buf.stMsgHead.enMsgType = MsgType.sendFile.code)
  (hsrc : buf.stMsgHead.srcName.Holds src) (hdes : buf.stMsgHead.desName.Holds pcName)
  (hother : src ≠ pcName) (honline : searchName s.g_pList pcName = some pDestNode)
  (hpath : path.strlen ≤ maxNameLen) (hopens : ∀ c ∈ senderFiles path, c = content)
  (hn : content.length < 2 ^ 31 - 255)
  (hnew : state.files path = none) (hcount : state.filePacketNum = 0)
include htype hsrc hdes hother honline hpath hopens hn hnew hcount

/-- What arrives needs no look at the counter: it is 0 again after a file that arrives as it is. -/
theorem content_transferFile_iff :
    let after := transferFile s cFd pDestNode.sfd pcName io state
      (doSendFile buf path senderFiles).2
    (after.files path = some content ↔
        FilesServed senderFiles path content io ∧ Transferable path content) ∧
      (after.files path = some content → after.filePacketNum = 0) := by
  intro after
  obtain ⟨files, filePacketNum⟩ := state
  obtain rfl : filePacketNum = 0 := hcount
  let head := buf.stMsgHead.forFile path content
  have hnone : ∀ {after : RecvState}, after.files path = none → after.files path ≠ some content :=
    fun hnone hsome => absurd (hnone.symm.trans hsome) (by simp)
  cases hfile : senderFiles path with
  | none =>
      have hafter : after = ⟨files, 0⟩ := by
        simp only [after, doSendFile, hfile, transferFile]
      rw [hafter]
      refine ⟨⟨fun h => absurd h (hnone hnew), ?_⟩, fun _ => rfl⟩
      rintro ⟨hserved, -⟩
      exact absurd (hfile.symm.trans hserved.opened) (by simp)
  | some c =>
      obtain rfl : c = content := hopens c hfile
      have hsrc' : head.srcName.Holds src := hsrc
      have hname : head.filename.Holds path :=
        CharArray.holds_strcpy buf.stMsgHead.filename (Nat.lt_succ_of_le hpath)
      have hafter : after = recvFrames pcName ⟨files, 0⟩ (answered head io (cut maxWordLen c)) :=
        transferFile_doSendFile htype hdes honline hfile cFd io ⟨files, 0⟩
      by_cases hne : c = []
      · subst hne
        have hempty : after.files path = none := by
          rw [hafter, cut_nil]
          exact hnew
        exact ⟨⟨fun h => absurd h (hnone hempty), fun h => absurd rfl h.2.nonempty⟩,
          fun h => absurd h (hnone hempty)⟩
      · by_cases hall : AllWritten io (cut maxWordLen c)
        · obtain ⟨hcontent, hzero⟩ :=
            received_iff_lastKept hnew hsrc' hother hname rfl hn hne
          rw [hafter, answered_eq_arriving head hall]
          refine ⟨hcontent.trans ⟨?_, fun h => h.2.lastKept⟩, fun _ => hzero⟩
          exact fun hkept => ⟨⟨hfile, hall.2⟩, hne, hall.1, hkept⟩
        · have hmissing : (recvFrames pcName ⟨files, 0⟩
              (answered head io (cut maxWordLen c))).files path ≠ some c :=
            not_received_of_missing hnew hall
          rw [hafter]
          refine ⟨⟨fun h => absurd h hmissing, ?_⟩, fun h => absurd h hmissing⟩
          exact fun h => absurd ⟨h.2.noExit, h.1.written⟩ hall

/-- A file sent to another user who is online arrives as it is, with the counter at 0
again, exactly if both users' file operations succeed, it is not empty, none of its pieces reads
as "exit" and its last piece is kept. -/
theorem fileTransfer_iff :
    let after := transferFile s cFd pDestNode.sfd pcName io state
      (doSendFile buf path senderFiles).2
    (after.files path = some content ∧ after.filePacketNum = 0) ↔
      FilesServed senderFiles path content io ∧ Transferable path content := by
  intro after
  obtain ⟨hcontent, hzero⟩ : (after.files path = some content ↔
        FilesServed senderFiles path content io ∧ Transferable path content) ∧
      (after.files path = some content → after.filePacketNum = 0) :=
    content_transferFile_iff htype hsrc hdes hother honline hpath hopens hn hnew hcount
  exact ⟨fun h => hcontent.mp h.1, fun h => ⟨hcontent.mpr h, hzero (hcontent.mpr h)⟩⟩

end

/-- A short text arrives. -/
theorem fileTransfer_text :
    let receiver : Node := ⟨lit "b", 5⟩
    let s : ServerState := ⟨Mysql.reference, ⟨[], [], []⟩, [receiver], ⟨0, 0, 0⟩⟩
    let buf := MsgData.make .sendFile (lit "a") (lit "b") (lit "")
    let files : Files := fun _ => some (utf8 "hello")
    let after := transferFile s 6 receiver.sfd (lit "b") (fun _ => .written) ⟨fun _ => none, 0⟩
      (doSendFile buf (lit "a.txt") files).2
    after.files (lit "a.txt") = some (utf8 "hello") ∧ after.filePacketNum = 0 := by
  intro receiver s buf files
  have hsrc : buf.stMsgHead.srcName.Holds (lit "a") := by decide
  have hdes : buf.stMsgHead.desName.Holds (lit "b") := by decide
  have honline : searchName s.g_pList (lit "b") = some receiver := by decide
  have hopens : ∀ c ∈ files (lit "a.txt"), c = utf8 "hello" :=
    fun c hc => (Option.some.inj hc).symm
  have hserved : FilesServed files (lit "a.txt") (utf8 "hello") fun _ => .written :=
    ⟨rfl, fun _ _ => rfl⟩
  have hsafe : Transferable (lit "a.txt") (utf8 "hello") :=
    ⟨by decide, by decide, by decide⟩
  exact (fileTransfer_iff rfl hsrc hdes (by decide) honline (by decide) hopens (by decide) rfl
    rfl).mpr ⟨hserved, hsafe⟩

/-- A picture of five bytes arrives with 250 zeros after it, though no file operation fails. -/
theorem not_fileTransfer :
    ¬ ∀ (s : ServerState) (cFd : ℕ) (pDestNode : Node) (buf : MsgData)
      (src pcName path : CStr) (senderFiles : Files) (content : Bytes) (state : RecvState),
      buf.stMsgHead.enMsgType = MsgType.sendFile.code →
      buf.stMsgHead.srcName.Holds src → buf.stMsgHead.desName.Holds pcName →
      src ≠ pcName → searchName s.g_pList pcName = some pDestNode →
      path.strlen ≤ maxNameLen → senderFiles path = some content →
      content.length < 2 ^ 31 - 255 → state.files path = none → state.filePacketNum = 0 →
      let after := transferFile s cFd pDestNode.sfd pcName (fun _ => .written) state
        (doSendFile buf path senderFiles).2
      after.files path = some content ∧ after.filePacketNum = 0 := by
  intro h
  let buf := MsgData.make .sendFile (lit "a") (lit "b") (lit "")
  have hcontent := (h ⟨Mysql.reference, ⟨[], [], []⟩, [⟨lit "b", 5⟩], ⟨0, 0, 0⟩⟩ 6
    ⟨lit "b", 5⟩ buf (lit "a") (lit "b") (lit "a.png") (fun _ => some (utf8 "hello"))
    (utf8 "hello") ⟨fun _ => none, 0⟩ rfl (by decide) (by decide) (by decide) rfl (by decide)
    rfl (by decide) rfl rfl).1
  rw [transferFile_doSendFile rfl (by decide) rfl rfl] at hcontent
  exact absurd hcontent (by decide +kernel)

end ChatRoom
