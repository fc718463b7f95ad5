import ChatRoom.Client.Send
import ChatRoom.Support.FileStream

/-!
# The sending loop

`doSendFile` with its stream and its two buffers.  A packet is read into `fileBuf`,
which has one byte more than it holds of the file, and copied from there to the body
of the one message buffer that all packets are written from.  The recursion of
`Client.File` on the bytes that are left comes to the same.
-/

namespace ChatRoom

open CString FileStream Framing

/-- The message buffer, and what was written so far. -/
abbrev SendState := MsgData × List ClientWrite

namespace FileSender

/-- The body of the loop, after `fread` has put a packet into the cleared `fileBuf`. -/
def sendPacket (state : SendState) (packet : Bytes) : SendState :=
  let fileBuf := (CharArray.zero (maxWordLen + 1)).store packet
  let pData := state.1.pData.store (List.replicate (maxWordLen + 1) 0)
  let msg := { state.1 with pData := pData.store (fileBuf.bytes.take maxWordLen) }
  (msg, state.2 ++ [⟨msg, sizeofMsgData⟩])

/-- `doSendFile`; `none` if its loop has not ended after the given number of turns.  The file has
the same content for `stat` and for `fread`. -/
def doSendFile (turns : ℕ) (pstClientMsg : MsgData) (pcFilePath : Name) (files : Files) :
    Option SendState :=
  match files pcFilePath with
  | none => some (pstClientMsg, [])
  | some content =>
      let stMsgHead := pstClientMsg.stMsgHead.forFile pcFilePath content
      let msg := { pstClientMsg with stMsgHead := stMsgHead }
      readLoop maxWordLen sendPacket turns (Stream.fopen content) (msg, [])

/-! ## One packet -/

/-- The whole body is cleared, so that only the packet is in it. -/
theorem sendPacket_eq (state : SendState) {packet : Bytes} (h : packet.length ≤ maxWordLen) :
    sendPacket state packet =
      (chunkMsg state.1.stMsgHead packet,
        state.2 ++ [⟨chunkMsg state.1.stMsgHead packet, sizeofMsgData⟩]) := by
  have hcleared : state.1.pData.store (List.replicate (maxWordLen + 1) 0) =
      CharArray.zero 256 := by
    have hlen : (List.replicate (maxWordLen + 1) (0 : UInt8)).length = 256 :=
      List.length_replicate
    apply CharArray.ext_bytes
    rw [CharArray.bytes_store hlen.le, hlen, List.drop_eq_nil_of_le state.1.pData.length_eq.le,
      List.append_nil]
    rfl
  have hmsg : (sendPacket state packet).1 = chunkMsg state.1.stMsgHead packet := by
    simp only [sendPacket, hcleared]
    exact congrArg (MsgData.mk state.1.stMsgHead) (ofBytes_paddedChunk h)
  rw [← hmsg]
  rfl

/-! ## The two models -/

/-- The recursion on the bytes that are left does with every packet what the loop does. -/
theorem sendFileLoop_eq_foldl (msg : MsgData) (fp : Bytes) (writes : List ClientWrite) :
    ((sendFileLoop msg fp).1, writes ++ (sendFileLoop msg fp).2) =
      (cut maxWordLen fp).foldl sendPacket (msg, writes) := by
  induction fp using cut_induction (n := maxWordLen) (by decide) generalizing msg writes with
  | nil => rw [sendFileLoop_nil, cut_nil, List.append_nil, List.foldl_nil]
  | step fp hfp ih =>
      have hpacket : (fp.take maxWordLen).length ≤ maxWordLen := List.length_take_le _ _
      rw [sendFileLoop_of_ne_nil msg hfp, cut_eq_cons (by decide) hfp, List.foldl_cons,
        sendPacket_eq _ hpacket, ← ih, List.append_assoc, List.singleton_append]

/-- The loop ends after one turn for each packet and one more, with what the recursion gives. -/
theorem doSendFile_eq (turns : ℕ) (pstClientMsg : MsgData) (pcFilePath : Name) {files : Files}
    {content : Bytes} (hfile : files pcFilePath = some content) :
    doSendFile turns pstClientMsg pcFilePath files =
      if (cut maxWordLen content).length < turns then
        some (ChatRoom.doSendFile pstClientMsg pcFilePath files)
      else none := by
  have hloop : ∀ msg : MsgData, (cut maxWordLen content).foldl sendPacket (msg, []) =
      sendFileLoop msg content := fun msg => (sendFileLoop_eq_foldl msg content []).symm
  simp only [doSendFile, ChatRoom.doSendFile, hfile]
  rw [readLoop_eq sendPacket (by decide), Stream.fopen, hloop]

/-! ## What is sent -/

/-- The frames carry the file: each under one header, which has its size and its name, and with
the next bytes of the file and zeros behind them. -/
structure Carries (path : CStr) (content : Bytes) (frames : List Bytes) : Prop where
  count : frames.length = (content.length + 254) / 255
  header : ∃ head : MsgHead, head.filesize.toInt = content.length ∧ head.filename.Holds path ∧
    ∀ frame ∈ frames, frame.take sizeofMsgHead = head.toBytes
  body : ∀ i (h : i < frames.length), (frames[i]).drop sizeofMsgHead =
    (content.drop (255 * i)).take 255 ++
      List.replicate (256 - min 255 (content.length - 255 * i)) 0

theorem pData_chunkMsg (head : MsgHead) {chunk : Bytes} (h : chunk.length ≤ maxWordLen) :
    (chunkMsg head chunk).toBytes.drop sizeofMsgHead =
      chunk ++ List.replicate (256 - chunk.length) 0 := by
  rw [chunkMsg, MsgData.toBytes, List.drop_left' head.length_toBytes,
    CharArray.bytes_ofBytes (h.trans (by decide))]

theorem carries_fileFrames {head : MsgHead} {path : CStr} {content : Bytes}
    (hsize : head.filesize.toInt = content.length) (hpath : head.filename.Holds path) :
    Carries path content ((fileFrames head content).map MsgData.toBytes) where
  count := by
    rw [List.length_map, fileFrames, List.length_map, length_cut, maxWordLen]
    rfl
  header := by
    refine ⟨head, hsize, hpath, fun frame hframe => ?_⟩
    obtain ⟨msg, hmsg, rfl⟩ := List.mem_map.mp hframe
    obtain ⟨chunk, -, rfl⟩ := List.mem_map.mp hmsg
    exact List.take_left' head.length_toBytes
  body i hi := by
    have hchunk : ((content.drop (i * maxWordLen)).take maxWordLen).length ≤ maxWordLen :=
      List.length_take_le _ _
    simp only [fileFrames, cut, List.getElem_map, List.getElem_range]
    rw [pData_chunkMsg head hchunk, List.length_take, List.length_drop, maxWordLen,
      Nat.mul_comm i]

/-- What is copied from the body of one of the frames. -/
theorem Carries.take_body {path : CStr} {content : Bytes} {frames : List Bytes}
    (h : Carries path content frames) :
    frames.map (fun frame => (frame.drop sizeofMsgHead).take maxWordLen) =
      (cut maxWordLen content).map paddedChunk := by
  apply List.ext_getElem
  · rw [List.length_map, List.length_map, length_cut, h.count]
    rfl
  · intro i hi hi'
    rw [List.length_map] at hi
    have hchunk : ((content.drop (255 * i)).take 255).length ≤ maxWordLen :=
      List.length_take_le _ _
    simp only [List.getElem_map, cut, List.getElem_range]
    rw [h.body i hi, Nat.mul_comm i, maxWordLen, paddedChunk_eq hchunk, List.take_append,
      List.take_take, min_self, List.take_replicate, List.length_take, List.length_drop]
    congr 2
    simp only [maxWordLen]
    omega

/-- The file is what the frames carry, one after the other, without the zeros at the end. -/
theorem Carries.content_prefix {path : CStr} {content : Bytes} {frames : List Bytes}
    (h : Carries path content frames) :
    content <+: (frames.map fun frame => (frame.drop sizeofMsgHead).take maxWordLen).flatten := by
  rw [h.take_body]
  clear h
  induction content using cut_induction (n := maxWordLen) (by decide) with
  | nil => exact List.nil_prefix
  | step content hne ih =>
      rw [cut_eq_cons (by decide) hne, List.map_cons, List.flatten_cons]
      rcases Nat.le_total content.length maxWordLen with hshort | hfull
      · rw [List.take_of_length_le hshort, paddedChunk_eq hshort, List.append_assoc]
        exact List.prefix_append _ _
      · have hlen : (content.take maxWordLen).length = maxWordLen := by
          rw [List.length_take, min_eq_left hfull]
        rw [paddedChunk_of_length hlen]
        nth_rewrite 1 [← List.take_append_drop maxWordLen content]
        exact (List.prefix_append_right_inj _).mpr ih

/-- The loop ends, after one turn for each frame and one more, and its writes carry the file,
whatever was in the message buffer before. -/
theorem doSendFile_carries (pstClientMsg : MsgData) (pcFilePath : Name) {files : Files}
    {content : Bytes} (hfile : files pcFilePath = some content)
    (hsize : content.length < 2 ^ 31) :
    ∃ sent : SendState,
      (∀ turns, doSendFile turns pstClientMsg pcFilePath files =
        if (content.length + 254) / 255 < turns then some sent else none) ∧
      Carries pcFilePath content (sent.2.map ClientWrite.bytes) := by
  let head := pstClientMsg.stMsgHead.forFile pcFilePath content
  have hfilesize : head.filesize.toInt = content.length := toInt_ofNat_of_lt hsize
  have hname : head.filename.Holds pcFilePath :=
    CharArray.holds_strcpy _ (Nat.lt_succ_of_le pcFilePath.property)
  have hframes : ((ChatRoom.doSendFile pstClientMsg pcFilePath files).2).map ClientWrite.bytes =
      (fileFrames head content).map MsgData.toBytes := by
    rw [snd_doSendFile hfile, List.map_map]
    exact List.map_congr_left fun frame _ => List.take_of_length_le frame.length_toBytes.le
  refine ⟨ChatRoom.doSendFile pstClientMsg pcFilePath files, fun turns => ?_, ?_⟩
  · rw [doSendFile_eq turns pstClientMsg pcFilePath hfile, length_cut]
    rfl
  · rw [hframes]
    exact carries_fileFrames hfilesize hname

/-- A file of two packets, sent from a buffer with an old text in its body. -/
theorem doSendFile_carries_twoPackets :
    let content : Bytes := List.replicate 300 120
    ∃ sent : SendState,
      (∀ turns, doSendFile turns (MsgData.make .sendFile (lit "a") (lit "b") (lit "old text"))
          ⟨lit "a.txt", by decide⟩ (fun _ => some content) =
        if (content.length + 254) / 255 < turns then some sent else none) ∧
      Carries (lit "a.txt") content (sent.2.map ClientWrite.bytes) :=
  doSendFile_carries _ ⟨lit "a.txt", by decide⟩ rfl (by rw [List.length_replicate]; decide)

end FileSender

end ChatRoom
