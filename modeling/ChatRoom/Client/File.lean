import ChatRoom.Core.Message
import ChatRoom.Support.Framing
import Mathlib.Data.List.Infix

/-!
# Sending and receiving files

The functions of `client_file.c`.  A file is sent in pieces of `MAX_WORD_LEN` bytes,
one frame for each; the receiver appends the pieces to a file of the same name and
counts the frames of the transfer.
-/

namespace ChatRoom

open CString Framing

/-- A call of `write` with a message and a byte count. -/
structure ClientWrite where
  msg : MsgData
  count : ℕ

def ClientWrite.bytes (w : ClientWrite) : Bytes := w.msg.toBytes.take w.count

theorem ClientWrite.length_bytes (w : ClientWrite) :
    w.bytes.length = min w.count sizeofMsgData := by
  rw [bytes, List.length_take, MsgData.length_toBytes]

theorem length_bytes_of_count {w : ClientWrite} (h : w.count = sizeofMsgData) :
    w.bytes.length = sizeofMsgData := by
  rw [w.length_bytes, h, min_self]

theorem ofBytes_bytes_of_count {w : ClientWrite} (h : w.count = sizeofMsgData) :
    MsgData.ofBytes w.bytes = w.msg := by
  rw [ClientWrite.bytes, h, ← w.msg.length_toBytes, List.take_length,
    MsgData.ofBytes_toBytes]

/-- The files of one user by path.  A path has a content if `fopen` opens it with "rb+", which needs
a file that can be read and written. -/
abbrev Files := CStr → Option Bytes

/-- `mySplit`: the words before and after the first delimiter, both empty without
one. -/
def mySplit (str : CStr) (delim : UInt8) : CStr × CStr :=
  if delim ∈ str.bytes then
    (cstr (str.bytes.takeWhile (· ≠ delim)), cstr ((str.bytes.dropWhile (· ≠ delim)).drop 1))
  else (cstr [], cstr [])

/-! ## Sending -/

/-- The loop of `doSendFile`: `fp` are the bytes that have not been read yet. -/
def sendFileLoop (pstClientMsg : MsgData) (fp : Bytes) : MsgData × List ClientWrite :=
  let fileBuf := fp.take maxWordLen
  if fileBuf.length = 0 then (pstClientMsg, [])
  else
    let msg := { pstClientMsg with pData := CharArray.ofBytes 256 fileBuf }
    -- a short read has met the end of the file
    if fileBuf.length < maxWordLen then (msg, [⟨msg, sizeofMsgData⟩])
    else
      let next := sendFileLoop msg (fp.drop maxWordLen)
      (next.1, ⟨msg, sizeofMsgData⟩ :: next.2)
termination_by fp.length
decreasing_by
  simp only [fileBuf, List.length_take, List.length_drop, maxWordLen] at *
  omega

/-- A size that is not negative as an `int` is read as itself. -/
theorem toInt_ofNat_of_lt {n : ℕ} (h : n < 2 ^ 31) : (BitVec.ofNat 32 n).toInt = n := by
  have hnat : (BitVec.ofNat 32 n).toNat = n := by
    rw [BitVec.toNat_ofNat]
    exact Nat.mod_eq_of_lt (by omega)
  rw [BitVec.toInt_eq_toNat_of_lt (by rw [hnat]; omega), hnat]

/-- The header under which `doSendFile` sends a file. -/
def MsgHead.forFile (head : MsgHead) (pcFilePath : CStr) (content : Bytes) : MsgHead :=
  { head with
    filesize := BitVec.ofNat 32 content.length
    filename := head.filename.strcpy pcFilePath }

/-- `doSendFile`: the message buffer afterwards and the writes to the socket. -/
def doSendFile (pstClientMsg : MsgData) (pcFilePath : CStr) (files : Files) :
    MsgData × List ClientWrite :=
  match files pcFilePath with
  | none => (pstClientMsg, [])
  | some content =>
      sendFileLoop
        { pstClientMsg with stMsgHead := pstClientMsg.stMsgHead.forFile pcFilePath content }
        content

/-- The frame that carries one piece of a file. -/
def chunkMsg (head : MsgHead) (chunk : Bytes) : MsgData :=
  ⟨head, CharArray.ofBytes 256 chunk⟩

/-- `fileBuf` for a frame with the given piece of the file. -/
def paddedChunk (chunk : Bytes) : Bytes := (CharArray.ofBytes 256 chunk).bytes.take maxWordLen

theorem length_paddedChunk (chunk : Bytes) : (paddedChunk chunk).length = maxWordLen := by
  rw [paddedChunk, List.length_take, CharArray.length_bytes]
  rfl

theorem paddedChunk_eq {chunk : Bytes} (h : chunk.length ≤ maxWordLen) :
    paddedChunk chunk = chunk ++ List.replicate (maxWordLen - chunk.length) 0 := by
  have hroom : chunk.length ≤ 256 := h.trans (by decide)
  rw [paddedChunk, CharArray.bytes_ofBytes hroom, List.take_append, List.take_of_length_le h,
    List.take_replicate]
  congr 2
  simp only [maxWordLen] at h ⊢
  omega

theorem paddedChunk_of_length {chunk : Bytes} (h : chunk.length = maxWordLen) :
    paddedChunk chunk = chunk := by
  rw [paddedChunk_eq h.le, h, Nat.sub_self, List.replicate_zero, List.append_nil]

/-- A body that was cut behind the piece still has the zeros of the padding. -/
theorem ofBytes_paddedChunk {chunk : Bytes} (h : chunk.length ≤ maxWordLen) :
    CharArray.ofBytes 256 (paddedChunk chunk) = CharArray.ofBytes 256 chunk := by
  apply CharArray.ext_bytes
  rw [CharArray.bytes_ofBytes ((length_paddedChunk chunk).le.trans (by decide)),
    CharArray.bytes_ofBytes (h.trans (by decide)), length_paddedChunk, paddedChunk_eq h,
    List.append_assoc, List.replicate_append_replicate]
  congr 2
  simp only [maxWordLen] at h ⊢
  omega

/-- The frames of a file: the header with each piece of `MAX_WORD_LEN` bytes. -/
def fileFrames (head : MsgHead) (content : Bytes) : List MsgData :=
  (cut maxWordLen content).map (chunkMsg head)

/-! The loop takes one piece after another, whether it finds the end by a short read or by an
empty one. -/

theorem sendFileLoop_nil (msg : MsgData) : sendFileLoop msg [] = (msg, []) := by
  rw [sendFileLoop]
  rfl

theorem sendFileLoop_of_ne_nil (msg : MsgData) {fp : Bytes} (hfp : fp ≠ []) :
    sendFileLoop msg fp =
      let frame := chunkMsg msg.stMsgHead (fp.take maxWordLen)
      let next := sendFileLoop frame (fp.drop maxWordLen)
      (next.1, ⟨frame, sizeofMsgData⟩ :: next.2) := by
  have hpos : 0 < fp.length := List.length_pos_iff.mpr hfp
  have hread : ¬ (fp.take maxWordLen).length = 0 := by
    rw [List.length_take, maxWordLen]
    omega
  rw [sendFileLoop, if_neg hread]
  split_ifs with hshort
  · have hdrop : fp.drop maxWordLen = [] := by
      rw [List.length_take] at hshort
      exact List.drop_eq_nil_of_le (by omega)
    simp only [hdrop, sendFileLoop_nil, chunkMsg]
  · rfl

/-- The loop sends the pieces of the file in order. -/
theorem snd_sendFileLoop (msg : MsgData) (fp : Bytes) :
    (sendFileLoop msg fp).2 =
      (fileFrames msg.stMsgHead fp).map fun frame => ⟨frame, sizeofMsgData⟩ := by
  induction fp using cut_induction (n := maxWordLen) (by decide) generalizing msg with
  | nil => rw [sendFileLoop_nil, fileFrames, cut_nil, List.map_nil, List.map_nil]
  | step fp hfp ih =>
      rw [sendFileLoop_of_ne_nil msg hfp, fileFrames, cut_eq_cons (by decide) hfp, List.map_cons,
        List.map_cons]
      exact congrArg _ (ih (chunkMsg msg.stMsgHead (fp.take maxWordLen)))

theorem snd_doSendFile {buf : MsgData} {path : CStr} {senderFiles : Files} {content : Bytes}
    (hfile : senderFiles path = some content) :
    (doSendFile buf path senderFiles).2 =
      (fileFrames (buf.stMsgHead.forFile path content) content).map
        fun frame => ⟨frame, sizeofMsgData⟩ := by
  simp only [doSendFile, hfile, snd_sendFileLoop]

/-! ## Receiving -/

/-- How the file system answers one call of `doRecvFile`: `fopen` returns NULL, or
`fwrite` writes at most `limit` bytes. -/
inductive FileIo where
  | fopenFails
  | fwrites (limit : ℕ)
deriving DecidableEq

/-- Nothing fails: the longest write is `MAX_WORD_LEN` bytes. -/
def FileIo.ok : FileIo := .fwrites maxWordLen

/-- The answer of a file system that takes all the bytes of an `fwrite` or none. -/
inductive FileAnswer where
  | fopenFails
  | fwriteFails
  | written
deriving DecidableEq

def FileAnswer.io : FileAnswer → FileIo
  | .fopenFails => .fopenFails
  | .fwriteFails => .fwrites 0
  | .written => .ok

/-- `fopen` with mode "ab+" and an `fwrite`: the file exists afterwards, and the bytes
are at its end. -/
def Files.append (files : Files) (filename : CStr) (bytes : Bytes) : Files := fun name =>
  if name = filename then some ((files filename).getD [] ++ bytes) else files name

/-- `strstr` finds the needle. -/
def strstr (haystack needle : CStr) : Bool := decide (needle.bytes <:+: haystack.bytes)

/-- The last-chunk test, in the `int` arithmetic of the source. -/
def isLastChunk (filesize filePacketNum : BitVec 32) : Bool :=
  filesize.sle ((filePacketNum + 1) * 255)

/-- How many bytes of the body go to the file. -/
def chunkLength (filename : CStr) (fileBuf : Bytes) (last : Bool) : ℕ :=
  if last then
    if strstr filename (lit "png") || strstr filename (lit "jpg") then maxWordLen
    else (cstr fileBuf).strlen
  else maxWordLen

/-- What the receiving thread of a client keeps between frames, with the files of its
working directory. -/
structure RecvState where
  files : Files
  filePacketNum : BitVec 32

/-- `doRecvFile`.  A frame from the client's own user is a reply and is only printed. -/
def doRecvFile (state : RecvState) (pstClientMsg : MsgData) (pcName : CStr) (io : FileIo) :
    RecvState :=
  if pstClientMsg.srcNameStr = pcName then state
  else
    match io with
    | .fopenFails => state
    | .fwrites limit =>
        let filename := pstClientMsg.filenameStr
        let fileBuf := pstClientMsg.pData.bytes.take maxWordLen
        let last := isLastChunk pstClientMsg.stMsgHead.filesize state.filePacketNum
        { files := state.files.append filename
            (fileBuf.take (min limit (chunkLength filename fileBuf last)))
          filePacketNum := if last then 0 else state.filePacketNum + 1 }

end ChatRoom
