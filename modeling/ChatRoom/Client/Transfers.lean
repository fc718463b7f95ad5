import ChatRoom.Client.FileReceiver
import ChatRoom.Support.StepSystem

/-!
# Several transfers at one receiver

The frames of several files arrive in any order, each file's own frames in theirs.  A transfer may
stop at any frame, and the file system may fail for any of them.  Alone, a transfer starts with the
counter at 0; here it meets the counter that the frames of the others have left.
-/

namespace ChatRoom

open CString Framing StepSystem

/-- A file on its way to the receiver: the header of its frames, and the pieces that arrive. -/
structure Transfer where
  head : MsgHead
  filename : CStr
  pieces : List Bytes
  named : head.filename.Holds filename

def Transfer.frames (t : Transfer) : List MsgData := t.pieces.map (chunkMsg t.head)

/-- The transfer that `doSendFile` begins. -/
def Transfer.ofFile (buf : MsgData) (path : CStr) (content : Bytes)
    (hpath : path.strlen ≤ maxNameLen) : Transfer where
  head := buf.stMsgHead.forFile path content
  filename := path
  pieces := cut maxWordLen content
  named := CharArray.holds_strcpy buf.stMsgHead.filename (Nat.lt_succ_of_le hpath)

theorem Transfer.snd_doSendFile (buf : MsgData) {path : CStr} {content : Bytes}
    (hpath : path.strlen ≤ maxNameLen) {senderFiles : Files}
    (hfile : senderFiles path = some content) :
    (doSendFile buf path senderFiles).2 =
      (Transfer.ofFile buf path content hpath).frames.map fun msg => ⟨msg, sizeofMsgData⟩ :=
  ChatRoom.snd_doSendFile hfile

section
variable {ι : Type*} [DecidableEq ι]

/-- The receiver, and the frames that have arrived, each with the transfer that it belongs to. -/
structure Reception (ι : Type*) where
  recv : RecvState
  arrived : List (ι × FileFrame)

/-- The frames of one transfer, in the order of arrival. -/
def Reception.own (s : Reception ι) (i : ι) : List FileFrame :=
  (s.arrived.filter (·.1 = i)).map Prod.snd

/-- The frames of one transfer for which the file could be opened. -/
def Reception.opened (s : Reception ι) (i : ι) : ℕ :=
  (s.own i).countP (·.io ≠ .fopenFails)

variable (pcName : CStr) (transfers : ι → Transfer)

/-- The frame of a transfer that arrives next. -/
def Reception.next (s : Reception ι) (i : ι) : Option MsgData :=
  (transfers i).frames[(s.own i).length]?

/-- The next frame of some transfer arrives, and the file system gives some answer. -/
def receptionStep (s : Reception ι) (a : ι × FileIo) : Option (Reception ι) :=
  (s.next transfers a.1).map fun msg =>
    ⟨doRecvFile s.recv msg pcName a.2, s.arrived ++ [(a.1, ⟨msg, a.2⟩)]⟩

/-- What the receiver would have if the transfer's frames had arrived alone, with the counter
at 0. -/
def Reception.alone (files : Files) (s : Reception ι) (i : ι) : RecvState :=
  recvFrames pcName ⟨files, 0⟩ (s.own i)

/-- Every file has the content that its own frames alone produce. -/
def Undisturbed (files : Files) (s : Reception ι) : Prop :=
  ∀ i, s.recv.files (transfers i).filename =
    (s.alone pcName files i).files (transfers i).filename

/-! ## The counter that fits -/

/-- The counter after a number of packets of one file. -/
def ownCount (filesize : BitVec 32) : ℕ → BitVec 32
  | 0 => 0
  | o + 1 => if isLastChunk filesize (ownCount filesize o) then 0 else ownCount filesize o + 1

/-- It counts the packets as long as they do not make up the file. -/
theorem ownCount_ofNat {n : ℕ} (hn : n < 2 ^ 31) {o : ℕ} (ho : 255 * o < n) :
    ownCount (BitVec.ofNat 32 n) o = BitVec.ofNat 32 o := by
  induction o with
  | zero => rfl
  | succ o ih =>
      have htest : isLastChunk (BitVec.ofNat 32 n) (BitVec.ofNat 32 o) = false := by
        rw [isLastChunk_ofNat hn (by omega), decide_eq_false_iff_not]
        omega
      rw [ownCount, ih (by omega), htest, BitVec.ofNat_add]
      rfl

/-- The body of the frame has a NUL, and an `fwrite` of all of it gets past that. -/
def FileFrame.PastNul (frame : FileFrame) : Prop :=
  match frame.io with
  | .fopenFails => False
  | .fwrites limit =>
      (cstr (frame.msg.pData.bytes.take maxWordLen)).strlen < min limit maxWordLen

instance (frame : FileFrame) : Decidable frame.PastNul := by
  unfold FileFrame.PastNul
  split <;> infer_instance

/-- It matters for the frame whether it is taken for the last one: it belongs to another user's
file that is no picture, and the body can be written beyond its first NUL. -/
structure FileFrame.Sensitive (frame : FileFrame) (pcName : CStr) : Prop where
  other : frame.msg.srcNameStr ≠ pcName
  text : (strstr frame.filename (lit "png") || strstr frame.filename (lit "jpg")) = false
  written : frame.PastNul

instance (frame : FileFrame) (pcName : CStr) : Decidable (frame.Sensitive pcName) :=
  decidable_of_iff
    (frame.msg.srcNameStr ≠ pcName ∧
      (strstr frame.filename (lit "png") || strstr frame.filename (lit "jpg")) = false ∧
      frame.PastNul)
    ⟨fun ⟨hother, htext, hwritten⟩ => ⟨hother, htext, hwritten⟩,
      fun h => ⟨h.other, h.text, h.written⟩⟩

/-- If it matters for the frame whether it is taken for the last one, the test has the outcome with
the counter of the receiver that it has with the number of the transfer's own packets. -/
def CounterAgrees (s : Reception ι) (a : ι × FileIo) : Prop :=
  ∀ msg ∈ s.next transfers a.1, FileFrame.Sensitive ⟨msg, a.2⟩ pcName →
    isLastChunk (transfers a.1).head.filesize s.recv.filePacketNum =
      isLastChunk (transfers a.1).head.filesize
        (ownCount (transfers a.1).head.filesize (s.opened a.1))

instance (s : Reception ι) (a : ι × FileIo) : Decidable (CounterAgrees pcName transfers s a) := by
  unfold CounterAgrees
  infer_instance

/-- A write of another user's file has both lengths in common exactly if it is not sensitive. -/
theorem min_chunkLength_iff {msg : MsgData} {pcName : CStr} (hsrc : msg.srcNameStr ≠ pcName)
    (limit : ℕ) :
    min limit (chunkLength msg.filenameStr (msg.pData.bytes.take maxWordLen) true) =
        min limit (chunkLength msg.filenameStr (msg.pData.bytes.take maxWordLen) false) ↔
      ¬ FileFrame.Sensitive ⟨msg, .fwrites limit⟩ pcName := by
  have hle := strlen_cstr_le (msg.pData.bytes.take maxWordLen)
  rw [length_fileBuf] at hle
  have hsensitive : FileFrame.Sensitive ⟨msg, .fwrites limit⟩ pcName ↔
      (strstr msg.filenameStr (lit "png") || strstr msg.filenameStr (lit "jpg")) = false ∧
        (cstr (msg.pData.bytes.take maxWordLen)).strlen < min limit maxWordLen :=
    ⟨fun h => ⟨h.text, h.written⟩, fun ⟨htext, hwritten⟩ => ⟨hsrc, htext, hwritten⟩⟩
  rw [hsensitive]
  simp only [chunkLength, if_true, Bool.false_eq_true, if_false]
  cases hpicture : strstr msg.filenameStr (lit "png") || strstr msg.filenameStr (lit "jpg") with
  | true => simp
  | false =>
      simp only [Bool.false_eq_true, if_false, true_and]
      omega

/-- For other frames both lengths of the write are the same. -/
theorem FileFrame.writesAlike_iff {frame : FileFrame} {pcName : CStr} {a b : BitVec 32} :
    frame.WritesAlike pcName a b ↔
      (frame.Sensitive pcName →
        isLastChunk frame.msg.stMsgHead.filesize a =
          isLastChunk frame.msg.stMsgHead.filesize b) := by
  obtain ⟨msg, io⟩ := frame
  by_cases hsrc : msg.srcNameStr = pcName
  · exact ⟨fun _ h => absurd hsrc h.other, fun _ => .inl hsrc⟩
  · cases io with
    | fopenFails => exact ⟨fun _ h => h.written.elim, fun _ => .inr trivial⟩
    | fwrites limit =>
        rw [FileFrame.WritesAlike, FileFrame.filename]
        simp only [hsrc, false_or, min_chunkLength_iff hsrc]
        tauto

/-! ## One frame -/

variable {transfers}

/-- Every frame that has arrived has the header of its transfer. -/
def Recorded (transfers : ι → Transfer) (s : Reception ι) : Prop :=
  ∀ p ∈ s.arrived, p.2.msg.stMsgHead = (transfers p.1).head

theorem mem_next {s : Reception ι} {i : ι} {msg : MsgData} (h : msg ∈ s.next transfers i) :
    msg.stMsgHead = (transfers i).head := by
  obtain ⟨piece, -, rfl⟩ := List.mem_map.mp (List.mem_of_getElem? h)
  rfl

theorem filename_of_stMsgHead {t : Transfer} {frame : FileFrame}
    (h : frame.msg.stMsgHead = t.head) : frame.filename = t.filename :=
  MsgData.filenameStr_of_holds (h ▸ t.named)

variable {pcName}

theorem receptionStep_eq_some {s s' : Reception ι} {a : ι × FileIo}
    (h : receptionStep pcName transfers s a = some s') :
    ∃ msg ∈ s.next transfers a.1,
      s' = ⟨doRecvFile s.recv msg pcName a.2, s.arrived ++ [(a.1, ⟨msg, a.2⟩)]⟩ := by
  obtain ⟨msg, hmsg, hs'⟩ := Option.map_eq_some_iff.mp h
  exact ⟨msg, hmsg, hs'.symm⟩

theorem own_append_self (s : Reception ι) (recv : RecvState) (i : ι) (frame : FileFrame) :
    Reception.own ⟨recv, s.arrived ++ [(i, frame)]⟩ i = s.own i ++ [frame] := by
  simp [Reception.own]

theorem own_append_of_ne (s : Reception ι) (recv : RecvState) {i j : ι} (h : j ≠ i)
    (frame : FileFrame) : Reception.own ⟨recv, s.arrived ++ [(i, frame)]⟩ j = s.own j := by
  simp [Reception.own, Ne.symm h]

/-- Alone, the counter after frames with one header depends on how many could be opened. -/
theorem packetCount_eq_ownCount {head : MsgHead} {frames : List FileFrame}
    (hhead : ∀ f ∈ frames, f.msg.stMsgHead = head)
    (hsrc : ∀ f ∈ frames, f.msg.srcNameStr ≠ pcName) :
    packetCount pcName 0 frames =
      ownCount head.filesize (frames.countP (·.io ≠ .fopenFails)) := by
  induction frames using List.reverseRecOn with
  | nil => rfl
  | append_singleton before frame ih =>
      have hbefore := ih (fun f hf => hhead f (List.mem_append_left _ hf))
        fun f hf => hsrc f (List.mem_append_left _ hf)
      have hlast := hhead frame (List.mem_append_right _ (List.mem_singleton_self frame))
      have hother := hsrc frame (List.mem_append_right _ (List.mem_singleton_self frame))
      rw [packetCount_append_singleton, hbefore, countPacket, List.countP_append, hlast]
      by_cases hio : frame.io = .fopenFails
      · simp [hio]
      · simp [hio, hother, ownCount]

/-- The sender's name ends in the header. -/
theorem srcNameStr_of_stMsgHead {msg : MsgData} {t : Transfer} (h : msg.stMsgHead = t.head) :
    msg.srcNameStr = cstr (t.head.toBytes.drop 4) := by
  have hnul : 0 ∈ t.head.toBytes.drop 4 := by
    have hmem : 0 ∈ t.head.filename.bytes := by
      refine t.named.subset ?_
      exact List.mem_append_right _ (List.mem_singleton_self 0)
    rw [← List.append_nil t.head.toBytes, MsgHead.drop_srcName]
    simp [hmem]
  have hdrop : msg.toBytes.drop 4 = t.head.toBytes.drop 4 ++ msg.pData.bytes := by
    rw [MsgData.toBytes, h, List.drop_append_of_le_length]
    rw [MsgHead.length_toBytes]
    decide
  rw [MsgData.srcNameStr, hdrop, cstr_append_of_mem hnul]

/-- Alone, the receiver's counter is the number of the transfer's own packets. -/
theorem filePacketNum_alone {s : Reception ι} (hs : Recorded transfers s) (files : Files) {i : ι}
    {msg : MsgData} (hmsg : msg.stMsgHead = (transfers i).head) (hsrc : msg.srcNameStr ≠ pcName) :
    (s.alone pcName files i).filePacketNum =
      ownCount (transfers i).head.filesize (s.opened i) := by
  have hhead : ∀ f ∈ s.own i, f.msg.stMsgHead = (transfers i).head := by
    intro f hf
    obtain ⟨p, hp, rfl⟩ := List.mem_map.mp hf
    obtain ⟨hmem, hi⟩ := List.mem_filter.mp hp
    rw [hs p hmem, of_decide_eq_true hi]
  have hother : ∀ f ∈ s.own i, f.msg.srcNameStr ≠ pcName := fun f hf => by
    rw [srcNameStr_of_stMsgHead (hhead f hf), ← srcNameStr_of_stMsgHead hmsg]
    exact hsrc
  rw [Reception.alone, filePacketNum_eq_packetCount]
  exact packetCount_eq_ownCount hhead hother

theorem recorded_step {s s' : Reception ι} {a : ι × FileIo} (hs : Recorded transfers s)
    (h : receptionStep pcName transfers s a = some s') : Recorded transfers s' := by
  obtain ⟨msg, hmsg, rfl⟩ := receptionStep_eq_some h
  intro p hp
  rcases List.mem_append.mp hp with hp | hp
  · exact hs p hp
  · obtain rfl := List.mem_singleton.mp hp
    exact mem_next hmsg

/-- A frame is written as it would be alone exactly if the counter agrees with it. -/
theorem writesAlike_iff_counterAgrees {s : Reception ι} (hs : Recorded transfers s) {i : ι}
    {msg : MsgData} (hmsg : s.next transfers i = some msg) (io : FileIo) (files : Files) :
    FileFrame.WritesAlike ⟨msg, io⟩ pcName s.recv.filePacketNum
        (s.alone pcName files i).filePacketNum ↔
      CounterAgrees pcName transfers s (i, io) := by
  have hhead := mem_next hmsg
  have hagrees : CounterAgrees pcName transfers s (i, io) ↔
      (FileFrame.Sensitive ⟨msg, io⟩ pcName →
        isLastChunk (transfers i).head.filesize s.recv.filePacketNum =
          isLastChunk (transfers i).head.filesize
            (ownCount (transfers i).head.filesize (s.opened i))) := by
    constructor
    · exact fun hall => hall msg hmsg
    · intro hone msg' hmsg'
      obtain rfl : msg = msg' := Option.some.inj (hmsg.symm.trans hmsg')
      exact hone
  rw [FileFrame.writesAlike_iff, hagrees]
  refine forall_congr' fun hsensitive => ?_
  rw [filePacketNum_alone hs files hhead hsensitive.other]
  exact Iff.of_eq (congrArg₂ Eq (congrArg₂ isLastChunk (congrArg _ hhead) rfl)
    (congrArg₂ isLastChunk (congrArg _ hhead) rfl))

/-- One more frame leaves the files undisturbed exactly if the counter agrees with it. -/
theorem undisturbed_step_iff (hnames : Function.Injective fun i => (transfers i).filename)
    {files : Files} {s s' : Reception ι} {a : ι × FileIo} (hs : Recorded transfers s)
    (hbefore : Undisturbed pcName transfers files s)
    (h : receptionStep pcName transfers s a = some s') :
    Undisturbed pcName transfers files s' ↔ CounterAgrees pcName transfers s a := by
  obtain ⟨i, io⟩ := a
  obtain ⟨msg, hmsg, rfl⟩ := receptionStep_eq_some h
  have hhead := mem_next hmsg
  let frame : FileFrame := ⟨msg, io⟩
  have hname : frame.filename = (transfers i).filename := filename_of_stMsgHead hhead
  -- the frame's own file
  have hself : (doRecvFile s.recv msg pcName io).files (transfers i).filename =
        (Reception.alone pcName files ⟨doRecvFile s.recv msg pcName io,
          s.arrived ++ [(i, frame)]⟩ i).files (transfers i).filename ↔
      frame.WritesAlike pcName s.recv.filePacketNum
        (s.alone pcName files i).filePacketNum := by
    rw [← hname, ← files_doRecvFile_iff (hname ▸ hbefore i), Reception.alone, own_append_self,
      recvFrames_append_singleton]
    rfl
  -- the files of the others
  have hothers : ∀ j ≠ i, (doRecvFile s.recv msg pcName io).files (transfers j).filename =
      (Reception.alone pcName files ⟨doRecvFile s.recv msg pcName io,
        s.arrived ++ [(i, frame)]⟩ j).files (transfers j).filename := by
    intro j hj
    have hne : (transfers j).filename ≠ frame.filename := by
      rw [hname]
      exact fun heq => hj (hnames heq)
    rw [files_doRecvFile_of_ne hne, Reception.alone, own_append_of_ne _ _ hj]
    exact hbefore j
  rw [← writesAlike_iff_counterAgrees hs hmsg io files, ← hself]
  constructor
  · exact fun hafter => hafter i
  · intro hown j
    by_cases hj : j = i
    · rw [hj]
      exact hown
    · exact hothers j hj

/-! ## All orders of arrival -/

/-- In every order of arrival, with any answers of the file system, the files have at every moment
the content that each transfer alone would have produced, exactly if the counter agrees with every
frame. -/
theorem filesUndisturbed_iff (pcName : CStr)
    (hnames : Function.Injective fun i => (transfers i).filename) (files : Files)
    (filePacketNum : BitVec 32) (arrivals : List (ι × FileIo)) :
    EveryState (receptionStep pcName transfers) (Undisturbed pcName transfers files)
        ⟨⟨files, filePacketNum⟩, []⟩ arrivals ↔
      EveryStep (receptionStep pcName transfers) (CounterAgrees pcName transfers)
        ⟨⟨files, filePacketNum⟩, []⟩ arrivals := by
  have hstart : Recorded transfers ⟨⟨files, filePacketNum⟩, []⟩ ∧
      Undisturbed pcName transfers files ⟨⟨files, filePacketNum⟩, []⟩ :=
    ⟨fun p hp => absurd hp List.not_mem_nil, fun i => rfl⟩
  have hstep : ∀ (s : Reception ι) (a : ι × FileIo) (s' : Reception ι),
      Recorded transfers s ∧ Undisturbed pcName transfers files s →
      CounterAgrees pcName transfers s a → receptionStep pcName transfers s a = some s' →
      Recorded transfers s' ∧ Undisturbed pcName transfers files s' := by
    rintro s a s' ⟨hs, hbefore⟩ hguard h
    exact ⟨recorded_step hs h, (undisturbed_step_iff hnames hs hbefore h).mpr hguard⟩
  refine everyState_iff_everyStep hstep ?_ hstart hstart.2
  rintro s a s' ⟨hs, hbefore⟩ h
  exact undisturbed_step_iff hnames hs hbefore h

end

/-- A file of 256 bytes from "a" and one of five bytes from "c". -/
def twoTransfers : Bool → Transfer
  | true => .ofFile (MsgData.make .sendFile (lit "a") (lit "b") (lit "")) (lit "a.txt")
      (List.replicate 256 120) (by decide)
  | false => .ofFile (MsgData.make .sendFile (lit "c") (lit "b") (lit "")) (lit "c.txt")
      (utf8 "hello") (by decide)

theorem filename_twoTransfers : Function.Injective fun i => (twoTransfers i).filename := by
  unfold Function.Injective
  decide

/-- One after the other they do not disturb each other, also if a write of the second one fails. -/
theorem filesUndisturbed_twoTransfers :
    EveryState (receptionStep (lit "b") twoTransfers)
      (Undisturbed (lit "b") twoTransfers fun _ => none) ⟨⟨fun _ => none, 0⟩, []⟩
      [(true, .ok), (true, .ok), (false, .fwrites 0)] :=
  (filesUndisturbed_iff (lit "b") filename_twoTransfers (fun _ => none) 0 _).mpr
    (by decide +kernel)

/-- The file of "c", which fits one frame, arrives between the two frames of the file of "a". -/
def crossing : Option (Reception Bool) :=
  run (receptionStep (lit "b") twoTransfers) ⟨⟨fun _ => none, 0⟩, []⟩
    [(true, .ok), (false, .ok), (true, .ok)]

theorem isSome_crossing : crossing.isSome := by decide +kernel

/-- The counter is 0 again when the last frame of "a" arrives, and its padding is stored. -/
theorem not_filesUndisturbed :
    ¬ EveryState (receptionStep (lit "b") twoTransfers)
      (Undisturbed (lit "b") twoTransfers fun _ => none) ⟨⟨fun _ => none, 0⟩, []⟩
      [(true, .ok), (false, .ok), (true, .ok)] := by
  intro h
  have hafter := h.last (Option.some_get isSome_crossing).symm true
  exact absurd hafter (by decide +kernel)

end ChatRoom
