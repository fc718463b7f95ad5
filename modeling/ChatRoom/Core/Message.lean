import ChatRoom.Support.CString

/-!
# Messages on the wire

`MsgHead` and `MsgData` are `MSG_HEAD_S` and `MSG_DATA_S` of `public.h`.  Both
sides send the structure as it lies in memory, so `toBytes` is the layout the
compiler gives it: no padding, 104 bytes of header and 256 bytes of body.
-/

namespace ChatRoom

open CString

/-! ## Constants and message types -/

def maxNameLen : ℕ := 31
def maxWordLen : ℕ := 255

/-- `sizeof(MSG_HEAD_S)`. -/
def sizeofMsgHead : ℕ := 104

/-- `sizeof(MSG_DATA_S)`. -/
def sizeofMsgData : ℕ := 360

/-- Return values `ERROR_SUCCESS` and `ERROR_FAILED`. -/
inductive ErrCode where
  | success
  | failed
deriving DecidableEq

inductive MsgType where
  | showAll
  | showFriend
  | addFriend
  | delFriend
  | sendOne
  | sendAll
  | sendFile
  | banOne
  | logout
deriving DecidableEq

/-- The value of the enumerator. -/
def MsgType.code : MsgType → BitVec 32
  | showAll => 0
  | showFriend => 1
  | addFriend => 2
  | delFriend => 3
  | sendOne => 4
  | sendAll => 5
  | sendFile => 6
  | banOne => 7
  | logout => 8

/-- The enumerator with the given value; the wire may carry any value. -/
def MsgType.ofCode? (code : BitVec 32) : Option MsgType :=
  [showAll, showFriend, addFriend, delFriend, sendOne, sendAll, sendFile, banOne,
    logout][code.toNat]?

@[simp] theorem MsgType.ofCode?_code (type : MsgType) : ofCode? type.code = some type := by
  cases type <;> rfl

/-- The message types that are relayed to the one user they are addressed to. -/
def MsgType.ToOne (enMsgType : MsgType) : Prop :=
  enMsgType = .addFriend ∨ enMsgType = .sendOne ∨ enMsgType = .sendFile

/-! ## The structures -/

structure MsgHead where
  enMsgType : BitVec 32
  srcName : CharArray 32
  desName : CharArray 32
  filesize : BitVec 32
  filename : CharArray 32
deriving DecidableEq

structure MsgData where
  stMsgHead : MsgHead
  pData : CharArray 256
deriving DecidableEq

def MsgHead.toBytes (head : MsgHead) : Bytes :=
  le32 head.enMsgType ++ (head.srcName.bytes ++ (head.desName.bytes ++
    (le32 head.filesize ++ head.filename.bytes)))

def MsgData.toBytes (msg : MsgData) : Bytes :=
  msg.stMsgHead.toBytes ++ msg.pData.bytes

/-- The header at the start of a cleared buffer into which `memory` was read. -/
def MsgHead.ofBytes (memory : Bytes) : MsgHead where
  enMsgType := ofLe32 memory
  srcName := CharArray.ofBytes 32 (memory.drop 4)
  desName := CharArray.ofBytes 32 (memory.drop 36)
  filesize := ofLe32 (memory.drop 68)
  filename := CharArray.ofBytes 32 (memory.drop 72)

/-- The message in a cleared buffer into which `memory` was read. -/
def MsgData.ofBytes (memory : Bytes) : MsgData where
  stMsgHead := MsgHead.ofBytes memory
  pData := CharArray.ofBytes 256 (memory.drop sizeofMsgHead)

@[simp] theorem MsgHead.length_toBytes (head : MsgHead) :
    head.toBytes.length = sizeofMsgHead := by
  simp [toBytes, sizeofMsgHead]

@[simp] theorem MsgData.length_toBytes (msg : MsgData) :
    msg.toBytes.length = sizeofMsgData := by
  simp [toBytes, sizeofMsgHead, sizeofMsgData]

/-! The fields of a header, read from the start of the field on. -/

section
variable (head : MsgHead) (rest : Bytes)

theorem MsgHead.drop_srcName : (head.toBytes ++ rest).drop 4 =
    head.srcName.bytes ++ (head.desName.bytes ++ (le32 head.filesize ++
      (head.filename.bytes ++ rest))) := by
  simp only [toBytes, List.append_assoc]
  exact List.drop_left' (length_le32 _)

theorem MsgHead.drop_desName : (head.toBytes ++ rest).drop 36 =
    head.desName.bytes ++ (le32 head.filesize ++ (head.filename.bytes ++ rest)) := by
  rw [show 36 = 4 + 32 from rfl, ← List.drop_drop, drop_srcName]
  exact List.drop_left' head.srcName.length_eq

theorem MsgHead.drop_filesize : (head.toBytes ++ rest).drop 68 =
    le32 head.filesize ++ (head.filename.bytes ++ rest) := by
  rw [show 68 = 36 + 32 from rfl, ← List.drop_drop, drop_desName]
  exact List.drop_left' head.desName.length_eq

theorem MsgHead.drop_filename : (head.toBytes ++ rest).drop 72 =
    head.filename.bytes ++ rest := by
  rw [show 72 = 68 + 4 from rfl, ← List.drop_drop, drop_filesize]
  exact List.drop_left' (length_le32 _)

theorem MsgHead.ofBytes_toBytes_append : MsgHead.ofBytes (head.toBytes ++ rest) = head := by
  have htype : ofLe32 (head.toBytes ++ rest) = head.enMsgType := by
    simp only [toBytes, List.append_assoc, ofLe32_le32_append]
  rw [MsgHead.ofBytes, htype, drop_srcName, drop_desName, drop_filesize, drop_filename]
  simp only [CharArray.ofBytes_append, ofLe32_le32_append]

end

/-- A message is read back from the bytes that were sent for it. -/
@[simp] theorem MsgData.ofBytes_toBytes (msg : MsgData) : ofBytes msg.toBytes = msg := by
  obtain ⟨head, body⟩ := msg
  simp only [ofBytes, toBytes, MsgHead.ofBytes_toBytes_append, MsgData.mk.injEq, true_and]
  rw [List.drop_left' head.length_toBytes, CharArray.ofBytes_bytes]

/-- Cut to the header and `k` bytes of body, a message keeps its header and the
first `k` bytes of its body. -/
theorem MsgData.take_toBytes (msg : MsgData) (k : ℕ) :
    msg.toBytes.take (sizeofMsgHead + k) = msg.stMsgHead.toBytes ++ msg.pData.bytes.take k := by
  rw [toBytes, ← msg.stMsgHead.length_toBytes, List.take_length_add_append]

theorem MsgData.ofBytes_take (msg : MsgData) (k : ℕ) :
    ofBytes (msg.toBytes.take (sizeofMsgHead + k)) =
      { msg with pData := CharArray.ofBytes 256 (msg.pData.bytes.take k) } := by
  rw [take_toBytes]
  simp only [ofBytes, MsgHead.ofBytes_toBytes_append, MsgData.mk.injEq, true_and]
  rw [List.drop_left' msg.stMsgHead.length_toBytes]

/-! ## Filling a message -/

/-- A cleared structure with type, names and body filled in. -/
def MsgData.make (enMsgType : MsgType) (srcName desName pData : CStr) : MsgData where
  stMsgHead :=
    { enMsgType := enMsgType.code
      srcName := (CharArray.zero 32).strcpy srcName
      desName := (CharArray.zero 32).strcpy desName
      filesize := 0
      filename := CharArray.zero 32 }
  pData := (CharArray.zero 256).strcpy pData

/-- `memcpy` of a text without its terminator to the start of the body. -/
def MsgData.copyText (pstData : MsgData) (text : CStr) : MsgData :=
  { pstData with pData := pstData.pData.store text.bytes }

/-- `memset` of the body to 0. -/
def MsgData.clearBody (pstData : MsgData) : MsgData :=
  { pstData with pData := CharArray.zero 256 }

/-- The bytes of a write of header and `MAX_WORD_LEN` bytes of body. -/
def MsgData.shortFrame (pstData : MsgData) : Bytes :=
  pstData.toBytes.take (sizeofMsgHead + maxWordLen)

/-! ## Strings in a message

`strcpy` and `strcmp` read from the start of a field to the first NUL, whether
or not it is still inside the field. -/

def MsgData.srcNameStr (msg : MsgData) : CStr := cstr (msg.toBytes.drop 4)
def MsgData.desNameStr (msg : MsgData) : CStr := cstr (msg.toBytes.drop 36)
def MsgData.filenameStr (msg : MsgData) : CStr := cstr (msg.toBytes.drop 72)

/-- The text in the first `MAX_WORD_LEN` bytes of the body, which is all that the
receivers copy. -/
def MsgData.pDataStr (msg : MsgData) : CStr := cstr (msg.pData.bytes.take maxWordLen)

theorem MsgData.srcNameStr_of_holds {msg : MsgData} {name : CStr}
    (h : msg.stMsgHead.srcName.Holds name) : msg.srcNameStr = name := by
  rw [srcNameStr, toBytes, MsgHead.drop_srcName]
  exact h.cstr_append _

theorem MsgData.desNameStr_of_holds {msg : MsgData} {name : CStr}
    (h : msg.stMsgHead.desName.Holds name) : msg.desNameStr = name := by
  rw [desNameStr, toBytes, MsgHead.drop_desName]
  exact h.cstr_append _

theorem MsgData.filenameStr_of_holds {msg : MsgData} {name : CStr}
    (h : msg.stMsgHead.filename.Holds name) : msg.filenameStr = name := by
  rw [filenameStr, toBytes, MsgHead.drop_filename]
  exact h.cstr_append _

end ChatRoom
