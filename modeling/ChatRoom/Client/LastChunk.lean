import ChatRoom.Client.FileReceiver

/-!
# The last-chunk test

`doRecvFile` multiplies the number of the packet by the size of a packet, as an `int`,
and compares the product with the size of the file.  For the last packet the product is
the size rounded up to whole packets, which for the largest sizes is no `int` any more.
-/

namespace ChatRoom

open CString Framing

/-- All packets of one file of another user, as many as the sender writes for the size. -/
structure IsTransfer (pcName : CStr) (n : ℕ) (frames : List FileFrame) : Prop where
  packet : ∀ frame ∈ frames, frame.IsPacket pcName n
  count : frames.length = (n + 254) / 255

/-- The packet counter that the frame with the given index meets. -/
def counterAt (pcName : CStr) (files : Files) (frames : List FileFrame) (i : ℕ) : BitVec 32 :=
  (recvFrames pcName ⟨files, 0⟩ (frames.take i)).filePacketNum

/-- The last frame takes the branch for the last chunk and no other one does, the counter is 0
afterwards, and no product exceeds the range of an `int`. -/
structure LastChunkExact (pcName : CStr) (files : Files) (frames : List FileFrame) : Prop where
  branch : ∀ i (h : i < frames.length),
    isLastChunk (frames[i]).msg.stMsgHead.filesize (counterAt pcName files frames i) = true ↔
      i + 1 = frames.length
  counter : (recvFrames pcName ⟨files, 0⟩ frames).filePacketNum = 0
  product : ∀ i < frames.length,
    ((counterAt pcName files frames i).toInt + 1) * maxWordLen ≤ 2 ^ 31 - 1

/-- The largest size whose last product is an `int`: 2147483520. -/
def maxFilesize : ℕ := 255 * ((2 ^ 31 - 1) / 255)

/-- What `doSendFile` writes for a file is a transfer. -/
theorem isTransfer_arriving {head : MsgHead} {pcName src : CStr} {content : Bytes}
    (hsrc : head.srcName.Holds src) (hother : src ≠ pcName)
    (hsize : head.filesize = BitVec.ofNat 32 content.length) :
    IsTransfer pcName content.length (arriving head (cut maxWordLen content)) where
  packet _ hframe := isPacket_of_mem_arriving hsrc hother hsize hframe
  count := by
    rw [arriving, List.length_map, length_cut, maxWordLen]
    rfl

/-! ## The counter of a transfer -/

section
variable {pcName : CStr} {n : ℕ} {frames : List FileFrame} (h : IsTransfer pcName n frames)
  (hn : n < 2 ^ 31) (files : Files)
include h hn

/-- Every frame meets the number of the frames before it: the packets before it do not make up
the file, so that none of them was taken for the last one. -/
theorem IsTransfer.counterAt_eq {i : ℕ} (hi : i < frames.length) :
    counterAt pcName files frames i = BitVec.ofNat 32 i := by
  have hcount := h.count
  have hlen : (frames.take i).length = i := by
    rw [List.length_take]
    omega
  have hpackets : ∀ frame ∈ frames.take i, frame.IsPacket pcName n :=
    fun frame hframe => h.packet frame (List.mem_of_mem_take hframe)
  have hshort : 255 * (frames.take i).length < n := by omega
  rw [counterAt, filePacketNum_eq_packetCount, packetCount_of_short hn hpackets hshort, hlen]

/-- The product that the test of a frame compares with the size. -/
theorem IsTransfer.product_eq {i : ℕ} (hi : i < frames.length) :
    ((counterAt pcName files frames i).toInt + 1) * maxWordLen = 255 * (i + 1) := by
  have hcount := h.count
  rw [h.counterAt_eq hn files hi, toInt_ofNat_of_lt (by omega), maxWordLen]
  push_cast
  omega

/-- While the product is an `int`, the test finds the last frame. -/
theorem IsTransfer.isLastChunk_iff {i : ℕ} (hi : i < frames.length)
    (hproduct : 255 * (i + 1) < 2 ^ 31) :
    isLastChunk (frames[i]).msg.stMsgHead.filesize (counterAt pcName files frames i) = true ↔
      i + 1 = frames.length := by
  have hcount := h.count
  have hsize := (h.packet _ (List.getElem_mem hi)).filesize
  rw [hsize, h.counterAt_eq hn files hi, isLastChunk_ofNat hn hproduct, decide_eq_true_iff]
  omega

/-- The last frame decides on the counter. -/
theorem IsTransfer.filePacketNum_eq {i : ℕ} (hi : i + 1 = frames.length) :
    (recvFrames pcName ⟨files, 0⟩ frames).filePacketNum =
      if isLastChunk (BitVec.ofNat 32 n) (BitVec.ofNat 32 i) then 0
      else BitVec.ofNat 32 (i + 1) := by
  have hlt : i < frames.length := by omega
  have hframes : frames = frames.take i ++ [frames[i]] := by
    rw [← List.take_succ_eq_append_getElem hlt, hi, List.take_length]
  have hbefore : packetCount pcName 0 (frames.take i) = BitVec.ofNat 32 i :=
    (filePacketNum_eq_packetCount pcName ⟨files, 0⟩ _).symm.trans (h.counterAt_eq hn files hlt)
  have hlast := h.packet _ (List.getElem_mem hlt)
  rw [filePacketNum_eq_packetCount, hframes, packetCount_append_singleton, hbefore,
    hlast.countPacket_eq, BitVec.ofNat_add]
  rfl

/-- The product of the last frame is too large for the sizes above. -/
theorem IsTransfer.le_maxFilesize (hexact : LastChunkExact pcName files frames) :
    n ≤ maxFilesize := by
  by_contra hlarge
  rw [maxFilesize] at hlarge
  have hcount := h.count
  have hlast : frames.length - 1 < frames.length := by omega
  have hproduct := hexact.product _ hlast
  rw [h.product_eq hn files hlast] at hproduct
  omega

/-- There the multiplication wraps to a negative number, and the counter is not set back. -/
theorem IsTransfer.filePacketNum_of_lt (hlarge : maxFilesize < n) :
    (recvFrames pcName ⟨files, 0⟩ frames).filePacketNum = BitVec.ofNat 32 frames.length := by
  rw [maxFilesize] at hlarge
  have hcount := h.count
  have hlength : 8421504 + 1 = frames.length := by omega
  have hwrapped : ((BitVec.ofNat 32 8421504 + 1) * 255).toInt = -2147483521 := by decide
  have htest : isLastChunk (BitVec.ofNat 32 n) (BitVec.ofNat 32 8421504) = false := by
    rw [isLastChunk, BitVec.sle, toInt_ofNat_of_lt hn, hwrapped, decide_eq_false_iff_not]
    omega
  rw [h.filePacketNum_eq hn files hlength, htest, hlength]
  rfl

end

/-! ## All sizes -/

/-- The test is exact for the sizes up to the last multiple of a packet's size that is an `int`,
and for no larger one. -/
theorem lastChunkExact_iff {pcName : CStr} {n : ℕ} {frames : List FileFrame} (hn : n ≤ 2 ^ 31 - 1)
    (h : IsTransfer pcName n frames) (files : Files) :
    LastChunkExact pcName files frames ↔ n ≤ maxFilesize := by
  have hn' : n < 2 ^ 31 := by omega
  have hcount := h.count
  constructor
  · exact h.le_maxFilesize hn' files
  · intro hsize
    rw [maxFilesize] at hsize
    have hproduct : ∀ i < frames.length, 255 * (i + 1) < 2 ^ 31 := fun i hi => by omega
    refine ⟨fun i hi => h.isLastChunk_iff hn' files hi (hproduct i hi), ?_, fun i hi => ?_⟩
    · rcases hlength : frames.length with - | i
      · rw [List.eq_nil_of_length_eq_zero hlength]
        rfl
      · have htest : isLastChunk (BitVec.ofNat 32 n) (BitVec.ofNat 32 i) = true := by
          rw [isLastChunk_ofNat hn' (hproduct i (by omega)), decide_eq_true_iff]
          omega
        rw [h.filePacketNum_eq hn' files hlength.symm, htest]
        rfl
    · rw [h.product_eq hn' files hi]
      have hi' := hproduct i hi
      omega

/-- A file of two packets. -/
theorem lastChunkExact_twoPackets :
    let head := (MsgData.make .sendFile (lit "a") (lit "b") (lit "")).stMsgHead.forFile
      (lit "a.txt") (List.replicate 300 120)
    LastChunkExact (lit "b") (fun _ => none)
      (arriving head (cut maxWordLen (List.replicate 300 120))) := by
  intro head
  have hsrc : head.srcName.Holds (lit "a") := by decide
  have hother : lit "a" ≠ lit "b" := by decide
  have htransfer := isTransfer_arriving hsrc hother rfl
  rw [List.length_replicate] at htransfer
  exact (lastChunkExact_iff (by decide) htransfer _).mpr (by decide)

/-- For the largest `int` the last of the 8421505 products is 2147483775. -/
theorem not_lastChunkExact :
    ¬ ∀ (pcName : CStr) (n : ℕ) (frames : List FileFrame) (files : Files),
      1 ≤ n → n ≤ 2 ^ 31 - 1 → IsTransfer pcName n frames →
        LastChunkExact pcName files frames := by
  intro h
  let msg := MsgData.make .sendFile (lit "a") (lit "b") (lit "")
  let head : MsgHead := { msg.stMsgHead with filesize := BitVec.ofNat 32 (2 ^ 31 - 1) }
  let frame : FileFrame := ⟨⟨head, msg.pData⟩, .ok⟩
  have hframe : frame.IsPacket (lit "b") (2 ^ 31 - 1) := ⟨by decide, by decide, rfl⟩
  have htransfer : IsTransfer (lit "b") (2 ^ 31 - 1) (List.replicate 8421505 frame) :=
    ⟨fun f hf => (List.eq_of_mem_replicate hf) ▸ hframe, List.length_replicate⟩
  have hexact := h (lit "b") _ _ (fun _ => none) (by decide) le_rfl htransfer
  exact absurd (htransfer.le_maxFilesize (by decide) _ hexact) (by decide)

end ChatRoom
