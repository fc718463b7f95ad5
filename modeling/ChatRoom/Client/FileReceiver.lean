import ChatRoom.Client.File

/-!
# What a receiver does with the frames

The receiving thread has one packet counter for all files.  Whether a frame is the last of its
file is decided by the counter that it meets.
-/

namespace ChatRoom

open CString Framing

/-- A frame that reaches `doRecvFile`, with the answer of the file system. -/
structure FileFrame where
  msg : MsgData
  io : FileIo
deriving DecidableEq

def FileFrame.filename (frame : FileFrame) : CStr := frame.msg.filenameStr

/-- The frames in the order of arrival. -/
def recvFrames (pcName : CStr) (state : RecvState) (frames : List FileFrame) : RecvState :=
  frames.foldl (fun state frame => doRecvFile state frame.msg pcName frame.io) state

theorem recvFrames_append_singleton (pcName : CStr) (state : RecvState)
    (before : List FileFrame) (frame : FileFrame) :
    recvFrames pcName state (before ++ [frame]) =
      doRecvFile (recvFrames pcName state before) frame.msg pcName frame.io := by
  rw [recvFrames, List.foldl_append]
  rfl

/-- The frame writes the same bytes with either counter: it writes nothing in any case,
or the last-chunk test has the same outcome, or the outcome does not matter. -/
def FileFrame.WritesAlike (frame : FileFrame) (pcName : CStr) (a b : BitVec 32) : Prop :=
  frame.msg.srcNameStr = pcName ∨
    match frame.io with
    | .fopenFails => True
    | .fwrites limit =>
        isLastChunk frame.msg.stMsgHead.filesize a =
            isLastChunk frame.msg.stMsgHead.filesize b ∨
          min limit (chunkLength frame.filename (frame.msg.pData.bytes.take maxWordLen) true) =
            min limit (chunkLength frame.filename (frame.msg.pData.bytes.take maxWordLen) false)

theorem chunkLength_le (filename : CStr) {fileBuf : Bytes} (h : fileBuf.length = maxWordLen)
    (last : Bool) : chunkLength filename fileBuf last ≤ maxWordLen := by
  rw [chunkLength]
  split_ifs
  · exact le_rfl
  · exact h ▸ strlen_cstr_le fileBuf
  · exact le_rfl

@[simp] theorem length_fileBuf (msg : MsgData) :
    (msg.pData.bytes.take maxWordLen).length = maxWordLen := by
  rw [List.length_take, msg.pData.length_eq]
  rfl

theorem Files.append_of_ne {files : Files} {filename name : CStr} (h : name ≠ filename)
    (bytes : Bytes) : files.append filename bytes name = files name :=
  if_neg h

theorem Files.append_self (files : Files) (filename : CStr) (bytes : Bytes) :
    files.append filename bytes filename = some ((files filename).getD [] ++ bytes) :=
  if_pos rfl

theorem Files.append_append (files : Files) (filename : CStr) (a b : Bytes) :
    (files.append filename a).append filename b = files.append filename (a ++ b) := by
  funext name
  by_cases h : name = filename
  · rw [h, append_self, append_self, append_self, Option.getD_some, List.append_assoc]
  · rw [append_of_ne h, append_of_ne h, append_of_ne h]

theorem doRecvFile_reply {state : RecvState} {msg : MsgData} {pcName : CStr} {io : FileIo}
    (h : msg.srcNameStr = pcName) : doRecvFile state msg pcName io = state := by
  simp only [doRecvFile, if_pos h]

theorem doRecvFile_fopenFails (state : RecvState) (msg : MsgData) (pcName : CStr) :
    doRecvFile state msg pcName .fopenFails = state := by
  simp only [doRecvFile, ite_self]

theorem doRecvFile_fwrites {state : RecvState} {msg : MsgData} {pcName : CStr} {limit : ℕ}
    (h : msg.srcNameStr ≠ pcName) :
    doRecvFile state msg pcName (.fwrites limit) =
      ⟨state.files.append msg.filenameStr
          ((msg.pData.bytes.take maxWordLen).take (min limit
            (chunkLength msg.filenameStr (msg.pData.bytes.take maxWordLen)
              (isLastChunk msg.stMsgHead.filesize state.filePacketNum)))),
        if isLastChunk msg.stMsgHead.filesize state.filePacketNum then 0
        else state.filePacketNum + 1⟩ := by
  simp only [doRecvFile, if_neg h]

/-- A frame leaves the other files alone. -/
theorem files_doRecvFile_of_ne {state : RecvState} {msg : MsgData} {pcName name : CStr}
    {io : FileIo} (h : name ≠ msg.filenameStr) :
    (doRecvFile state msg pcName io).files name = state.files name := by
  by_cases hsrc : msg.srcNameStr = pcName
  · rw [doRecvFile_reply hsrc]
  · cases io with
    | fopenFails => rw [doRecvFile_fopenFails]
    | fwrites limit =>
        rw [doRecvFile_fwrites hsrc]
        exact Files.append_of_ne h _

theorem take_chunkLength_iff {filename : CStr} {fileBuf : Bytes} {limit : ℕ}
    (hlen : fileBuf.length = maxWordLen) (last last' : Bool) :
    fileBuf.take (min limit (chunkLength filename fileBuf last)) =
        fileBuf.take (min limit (chunkLength filename fileBuf last')) ↔
      last = last' ∨ min limit (chunkLength filename fileBuf true) =
        min limit (chunkLength filename fileBuf false) := by
  have hle := chunkLength_le filename hlen
  have hmin : ∀ b, min (min limit (chunkLength filename fileBuf b)) fileBuf.length =
      min limit (chunkLength filename fileBuf b) := fun b =>
    min_eq_left ((min_le_right _ _).trans (hlen ▸ hle b))
  rw [List.take_eq_take_iff, hmin, hmin]
  cases last <;> cases last' <;> simp [eq_comm]

/-- From two states with the same content of its file, a frame leaves the same content
exactly if it writes alike with their two counters. -/
theorem files_doRecvFile_iff {frame : FileFrame} {pcName : CStr} {state alone : RecvState}
    (h : state.files frame.filename = alone.files frame.filename) :
    (doRecvFile state frame.msg pcName frame.io).files frame.filename =
        (doRecvFile alone frame.msg pcName frame.io).files frame.filename ↔
      frame.WritesAlike pcName state.filePacketNum alone.filePacketNum := by
  obtain ⟨msg, io⟩ := frame
  rw [FileFrame.WritesAlike]
  by_cases hsrc : msg.srcNameStr = pcName
  · rw [doRecvFile_reply hsrc, doRecvFile_reply hsrc]
    exact ⟨fun _ => .inl hsrc, fun _ => h⟩
  · cases io with
    | fopenFails =>
        rw [doRecvFile_fopenFails, doRecvFile_fopenFails]
        exact ⟨fun _ => .inr trivial, fun _ => h⟩
    | fwrites limit =>
        rw [doRecvFile_fwrites hsrc, doRecvFile_fwrites hsrc]
        rw [FileFrame.filename] at h ⊢
        simp only [Files.append_self, h, Option.some.injEq, List.append_cancel_left_eq, hsrc,
          false_or]
        exact take_chunkLength_iff (length_fileBuf msg) _ _

/-! ## One transfer -/

/-- What the receiver writes for the pieces of a file: each one in full, with the
last-chunk rule for the last one. -/
def storedPieces (filename : CStr) : List Bytes → Bytes
  | [] => []
  | [chunk] =>
      (paddedChunk chunk).take (chunkLength filename (paddedChunk chunk) true)
  | chunk :: rest => paddedChunk chunk ++ storedPieces filename rest

theorem cstr_paddedChunk {chunk : Bytes} (h : chunk.length ≤ maxWordLen) :
    cstr (paddedChunk chunk) = cstr chunk := by
  rw [paddedChunk_eq h, cstr_append_zeros]

/-- The last-chunk rule keeps the last piece: a picture needs a full piece, any other
file a piece without NUL. -/
def LastPieceKept (filename : CStr) (chunk : Bytes) : Prop :=
  if strstr filename (lit "png") || strstr filename (lit "jpg") then
    chunk.length = maxWordLen
  else 0 ∉ chunk

instance (filename : CStr) (chunk : Bytes) : Decidable (LastPieceKept filename chunk) := by
  unfold LastPieceKept
  infer_instance

theorem storedPieces_singleton_iff (filename : CStr) {chunk : Bytes}
    (hle : chunk.length ≤ maxWordLen) :
    storedPieces filename [chunk] = chunk ↔ LastPieceKept filename chunk := by
  rw [storedPieces, LastPieceKept, chunkLength, if_pos rfl]
  by_cases hpicture : (strstr filename (lit "png") || strstr filename (lit "jpg")) = true
  · rw [if_pos hpicture, if_pos hpicture, List.take_of_length_le (length_paddedChunk chunk).le]
    constructor
    · intro h
      rw [← h]
      exact length_paddedChunk chunk
    · exact paddedChunk_of_length
  · rw [if_neg hpicture, if_neg hpicture, take_strlen_cstr, cstr_paddedChunk hle,
      bytes_cstr_eq_self_iff]

/-- The receiver stores the file as it is exactly if it keeps the last piece. -/
theorem storedPieces_eq_flatten_iff {filename : CStr} {chunks : List Bytes}
    (hfront : ∀ chunk ∈ chunks.dropLast, chunk.length = maxWordLen)
    (hle : ∀ chunk ∈ chunks, chunk.length ≤ maxWordLen) :
    storedPieces filename chunks = chunks.flatten ↔
      ∀ chunk ∈ chunks.getLast?, LastPieceKept filename chunk := by
  induction chunks with
  | nil => simp [storedPieces]
  | cons chunk rest ih =>
      cases rest with
      | nil =>
          have hchunk := storedPieces_singleton_iff filename (hle chunk List.mem_cons_self)
          simpa using hchunk
      | cons next rest =>
          rw [List.dropLast_cons_of_ne_nil (List.cons_ne_nil _ _)] at hfront
          rw [storedPieces, paddedChunk_of_length (hfront chunk List.mem_cons_self),
            List.flatten_cons, List.append_cancel_left_eq, List.getLast?_cons_cons]
          · exact ih (fun c hc => hfront c (List.mem_cons_of_mem _ hc))
              fun c hc => hle c (List.mem_cons_of_mem _ hc)
          · exact List.cons_ne_nil _ _

/-- While the counter stays below the size, the test is the one on natural numbers. -/
theorem isLastChunk_ofNat {n i : ℕ} (hn : n < 2 ^ 31) (hi : 255 * (i + 1) < 2 ^ 31) :
    isLastChunk (BitVec.ofNat 32 n) (BitVec.ofNat 32 i) = decide (n ≤ 255 * (i + 1)) := by
  have hcount : (BitVec.ofNat 32 i + 1) * 255 = BitVec.ofNat 32 (255 * (i + 1)) := by
    rw [Nat.mul_comm, BitVec.ofNat_mul, BitVec.ofNat_add]
    rfl
  rw [isLastChunk, hcount, BitVec.sle, toInt_ofNat_of_lt hn, toInt_ofNat_of_lt hi,
    decide_eq_decide]
  omega

/-- The frames of a file as they arrive when nothing fails. -/
def arriving (head : MsgHead) (chunks : List Bytes) : List FileFrame :=
  chunks.map fun chunk => ⟨chunkMsg head chunk, .ok⟩

/-- One frame of a transfer from another user. -/
theorem doRecvFile_chunk {head : MsgHead} {pcName src filename : CStr} {n i : ℕ}
    (hsrc : head.srcName.Holds src) (hother : src ≠ pcName)
    (hfile : head.filename.Holds filename) (hsize : head.filesize = BitVec.ofNat 32 n)
    (hn : n < 2 ^ 31) (hi : 255 * (i + 1) < 2 ^ 31) (files : Files) (chunk : Bytes) :
    doRecvFile ⟨files, BitVec.ofNat 32 i⟩ (chunkMsg head chunk) pcName .ok =
      if n ≤ 255 * (i + 1) then
        ⟨files.append filename
          ((paddedChunk chunk).take (chunkLength filename (paddedChunk chunk) true)), 0⟩
      else ⟨files.append filename (paddedChunk chunk), BitVec.ofNat 32 (i + 1)⟩ := by
  have hname : (chunkMsg head chunk).srcNameStr = src := MsgData.srcNameStr_of_holds hsrc
  have hsrc' : (chunkMsg head chunk).srcNameStr ≠ pcName := hname ▸ hother
  have hfile' : (chunkMsg head chunk).filenameStr = filename :=
    MsgData.filenameStr_of_holds hfile
  have htest : isLastChunk (chunkMsg head chunk).stMsgHead.filesize (BitVec.ofNat 32 i) =
      decide (n ≤ 255 * (i + 1)) := by
    rw [chunkMsg, hsize, isLastChunk_ofNat hn hi]
  have hbuf : (chunkMsg head chunk).pData.bytes.take maxWordLen = paddedChunk chunk := rfl
  have hle := chunkLength_le filename (length_paddedChunk chunk) true
  rw [FileIo.ok, doRecvFile_fwrites hsrc', hfile', hbuf, htest]
  by_cases hlast : n ≤ 255 * (i + 1)
  · simp only [hlast, decide_true, if_true, min_eq_right hle]
  · have hfull : (paddedChunk chunk).take maxWordLen = paddedChunk chunk :=
      List.take_of_length_le (length_paddedChunk chunk).le
    have hnext : BitVec.ofNat 32 (i + 1) = BitVec.ofNat 32 i + 1 := BitVec.ofNat_add i 1
    simp only [hlast, decide_false, if_false, chunkLength, Bool.false_eq_true, min_self,
      hfull, hnext]

section
variable {head : MsgHead} {pcName src filename : CStr} {n : ℕ}
  (hsrc : head.srcName.Holds src) (hother : src ≠ pcName)
  (hfile : head.filename.Holds filename) (hsize : head.filesize = BitVec.ofNat 32 n)
include hsrc hother hfile hsize

/-- A transfer whose frames all arrive ends with the counter at 0. -/
theorem recvFrames_complete {i : ℕ} {chunks : List Bytes} (hne : chunks ≠ [])
    (hlast : 255 * (i + chunks.length) < n + 255) (hcover : n ≤ 255 * (i + chunks.length))
    (hn : n < 2 ^ 31 - 255) (files : Files) :
    recvFrames pcName ⟨files, BitVec.ofNat 32 i⟩ (arriving head chunks) =
      ⟨files.append filename (storedPieces filename chunks), 0⟩ := by
  induction chunks generalizing i files with
  | nil => exact absurd rfl hne
  | cons chunk rest ih =>
      rw [List.length_cons] at hlast hcover
      have hstep := doRecvFile_chunk hsrc hother hfile hsize (by omega)
        (i := i) (by omega) files chunk
      rw [arriving, List.map_cons, recvFrames, List.foldl_cons, hstep]
      cases rest with
      | nil =>
          rw [if_pos (by simpa using hcover)]
          rfl
      | cons next rest =>
          rw [List.length_cons] at hlast hcover
          rw [if_neg (by omega)]
          refine (ih (List.cons_ne_nil _ _) (by rw [List.length_cons]; omega)
            (by rw [List.length_cons]; omega) _).trans ?_
          rw [Files.append_append]
          rfl

end

/-! ## The counter -/

/-- The packet count after a frame: replies and frames that could not be opened do not
count, and the last chunk ends the count. -/
def countPacket (pcName : CStr) (filePacketNum : BitVec 32) (frame : FileFrame) : BitVec 32 :=
  if frame.msg.srcNameStr = pcName ∨ frame.io = .fopenFails then filePacketNum
  else if isLastChunk frame.msg.stMsgHead.filesize filePacketNum then 0
  else filePacketNum + 1

/-- The packet count after several frames. -/
def packetCount (pcName : CStr) (filePacketNum : BitVec 32) (frames : List FileFrame) :
    BitVec 32 :=
  frames.foldl (countPacket pcName) filePacketNum

theorem filePacketNum_doRecvFile (state : RecvState) (frame : FileFrame) (pcName : CStr) :
    (doRecvFile state frame.msg pcName frame.io).filePacketNum =
      countPacket pcName state.filePacketNum frame := by
  obtain ⟨msg, io⟩ := frame
  by_cases hsrc : msg.srcNameStr = pcName
  · rw [doRecvFile_reply hsrc, countPacket, if_pos (.inl hsrc)]
  · cases io with
    | fopenFails => rw [doRecvFile_fopenFails, countPacket, if_pos (.inr rfl)]
    | fwrites limit =>
        have hcounts : ¬ (msg.srcNameStr = pcName ∨ FileIo.fwrites limit = .fopenFails) := by
          simp [hsrc]
        rw [doRecvFile_fwrites hsrc, countPacket, if_neg hcounts]

/-- The counter does not depend on what is in the files. -/
theorem filePacketNum_eq_packetCount (pcName : CStr) (state : RecvState)
    (frames : List FileFrame) :
    (recvFrames pcName state frames).filePacketNum =
      packetCount pcName state.filePacketNum frames := by
  induction frames generalizing state with
  | nil => rfl
  | cons frame rest ih =>
      rw [recvFrames, List.foldl_cons, packetCount, List.foldl_cons,
        ← filePacketNum_doRecvFile]
      exact ih _

/-! ## The packets of one file -/

/-- A packet of a file of `n` bytes from another user, which the receiver can open. -/
structure FileFrame.IsPacket (frame : FileFrame) (pcName : CStr) (n : ℕ) : Prop where
  other : frame.msg.srcNameStr ≠ pcName
  opened : frame.io ≠ .fopenFails
  filesize : frame.msg.stMsgHead.filesize = BitVec.ofNat 32 n

theorem FileFrame.IsPacket.countPacket_eq {frame : FileFrame} {pcName : CStr} {n : ℕ}
    (h : frame.IsPacket pcName n) (filePacketNum : BitVec 32) :
    countPacket pcName filePacketNum frame =
      if isLastChunk (BitVec.ofNat 32 n) filePacketNum then 0 else filePacketNum + 1 := by
  have hcounts : ¬ (frame.msg.srcNameStr = pcName ∨ frame.io = .fopenFails) := by
    rintro (hsrc | hio)
    · exact h.other hsrc
    · exact h.opened hio
  rw [countPacket, if_neg hcounts, h.filesize]

theorem packetCount_append_singleton (pcName : CStr) (filePacketNum : BitVec 32)
    (before : List FileFrame) (frame : FileFrame) :
    packetCount pcName filePacketNum (before ++ [frame]) =
      countPacket pcName (packetCount pcName filePacketNum before) frame := by
  rw [packetCount, List.foldl_append]
  rfl

/-- As long as the packets do not make up the file, the counter counts them. -/
theorem packetCount_of_short {pcName : CStr} {n : ℕ} (hn : n < 2 ^ 31) {frames : List FileFrame}
    (h : ∀ frame ∈ frames, frame.IsPacket pcName n) (hshort : 255 * frames.length < n) :
    packetCount pcName 0 frames = BitVec.ofNat 32 frames.length := by
  induction frames using List.reverseRecOn with
  | nil => rfl
  | append_singleton before frame ih =>
      rw [List.length_append, List.length_singleton] at hshort ⊢
      have hbefore := ih (fun f hf => h f (List.mem_append_left _ hf)) (by omega)
      have hframe := h frame (List.mem_append_right _ (List.mem_singleton_self frame))
      have htest : isLastChunk (BitVec.ofNat 32 n) (BitVec.ofNat 32 before.length) = false := by
        rw [isLastChunk_ofNat hn (by omega), decide_eq_false_iff_not]
        omega
      rw [packetCount_append_singleton, hbefore, hframe.countPacket_eq, htest, BitVec.ofNat_add]
      rfl

theorem isPacket_of_mem_arriving {head : MsgHead} {pcName src : CStr} {n : ℕ}
    (hsrc : head.srcName.Holds src) (hother : src ≠ pcName)
    (hsize : head.filesize = BitVec.ofNat 32 n) {chunks : List Bytes} {frame : FileFrame}
    (hframe : frame ∈ arriving head chunks) : frame.IsPacket pcName n := by
  obtain ⟨chunk, -, rfl⟩ := List.mem_map.mp hframe
  have hname : (chunkMsg head chunk).srcNameStr = src := MsgData.srcNameStr_of_holds hsrc
  have hopened : FileIo.ok ≠ .fopenFails := by decide
  exact ⟨hname ▸ hother, hopened, hsize⟩

end ChatRoom
