import ChatRoom.Client.Send
import ChatRoom.Support.SqlLiterals
import ChatRoom.System.FileTransfer

/-!
# The file dialogue

`sendFile2One` asks for a receiver and then reads commands until "exit": it lists the directory,
changes it, and sends a file for each line "put" with a path.  The receiver appends every frame to
the file that the frame names and keeps one counter for all of them, so each file arrives in the
state that the one before it has left.
-/

namespace ChatRoom

open CString Framing

/-! ## The commands -/

/-- The path of a command that starts with "put " and the content of the file of that path. -/
def FtpCommand.put? (c : FtpCommand) : Option (CStr × Bytes) :=
  (c.command.val.bytes.dropPrefix? (utf8 "put ")).bind fun path =>
    (c.files (cstr path)).map fun content => (cstr path, content)

/-- The files that are sent: those of the commands before "exit". -/
def putFiles (commands : List FtpCommand) : List (CStr × Bytes) :=
  (commands.takeWhile (·.command.val ≠ lit "exit")).filterMap FtpCommand.put?

/-- A line is split at its first blank. -/
theorem mySplit_append {word path : Bytes} (hword : 32 ∉ word) {str : CStr}
    (hstr : str.bytes = word ++ 32 :: path) : mySplit str 32 = (cstr word, cstr path) := by
  have hkept : ∀ b ∈ word, decide (b ≠ 32) = true := fun b hb =>
    decide_eq_true fun heq => hword (heq ▸ hb)
  have hmem : 32 ∈ str.bytes := by
    rw [hstr]
    exact List.mem_append_right _ List.mem_cons_self
  have htake : str.bytes.takeWhile (· ≠ 32) = word := by
    rw [hstr, List.takeWhile_append_of_pos hkept]
    simp
  have hdrop : (str.bytes.dropWhile (· ≠ 32)).drop 1 = path := by
    rw [hstr, List.dropWhile_append_of_pos hkept]
    simp
  rw [mySplit, if_pos hmem, htake, hdrop]

/-- A line whose first word is "put" starts with the word and a blank. -/
theorem dropPrefix?_of_mySplit {command : CStr} (h : (mySplit command 32).1 = lit "put") :
    ∃ path, command.bytes.dropPrefix? (utf8 "put ") = some path ∧
      (mySplit command 32).2 = cstr path := by
  by_cases hmem : 32 ∈ command.bytes
  · obtain ⟨word, path, hpath, hblank⟩ := List.eq_append_cons_of_mem hmem
    have hsplit := mySplit_append hblank hpath
    rw [hsplit] at h ⊢
    have hword : word = utf8 "put" := by
      have hnul : 0 ∉ word := fun hin => command.nulFree (by simp [hpath, hin])
      have hbytes := congrArg CStr.bytes h
      rwa [(bytes_cstr_eq_self_iff word).mpr hnul] at hbytes
    refine ⟨path, ?_, rfl⟩
    have hput : utf8 "put" ++ 32 :: path = utf8 "put " ++ path := rfl
    rw [hpath, hword, hput]
    exact List.dropPrefix?_append_of_beq path (by decide)
  · rw [mySplit, if_neg hmem] at h
    exact absurd h (by decide)

theorem mySplit_of_dropPrefix? {command : CStr} {path : Bytes}
    (h : command.bytes.dropPrefix? (utf8 "put ") = some path) :
    mySplit command 32 = (lit "put", cstr path) := by
  have hput : utf8 "put " ++ path = utf8 "put" ++ 32 :: path := rfl
  exact mySplit_append (by decide) ((SqlText.eq_of_dropPrefix?_eq_some h).trans hput)

/-- What the loop does with a command that sends nothing, or the file of a path. -/
theorem snd_ftpLoop_cons (msg : MsgData) {c : FtpCommand} (rest : List FtpCommand)
    (hexit : c.command.val ≠ lit "exit") :
    (c.put? = none ∧ (ftpLoop msg (c :: rest)).2 = (ftpLoop msg rest).2) ∨
      ∃ path content, c.put? = some (path, content) ∧ c.files path = some content ∧
        path.strlen ≤ maxNameLen ∧
        (ftpLoop msg (c :: rest)).2 =
          (doSendFile msg path c.files).2 ++ (ftpLoop (doSendFile msg path c.files).1 rest).2 := by
  obtain ⟨command, files⟩ := c
  by_cases hls : command.val = lit "ls"
  · have hnone : command.val.bytes.dropPrefix? (utf8 "put ") = none := by
      rw [hls]
      decide
    refine .inl ⟨by simp [FtpCommand.put?, hnone], ?_⟩
    rw [ftpLoop, if_neg hexit, if_pos hls]
  · by_cases hput : (mySplit command.val 32).1 = lit "put"
    · obtain ⟨path, hdrop, hpath⟩ := dropPrefix?_of_mySplit hput
      have hloop : (ftpLoop msg (⟨command, files⟩ :: rest)).2 =
          (doSendFile msg (cstr path) files).2 ++
            (ftpLoop (doSendFile msg (cstr path) files).1 rest).2 := by
        rw [ftpLoop, if_neg hexit, if_neg hls]
        dsimp only
        rw [if_pos hput, hpath]
      cases hfile : files (cstr path) with
      | none =>
          refine .inl ⟨by simp [FtpCommand.put?, hdrop, hfile], ?_⟩
          rw [hloop, doSendFile, hfile]
          rfl
      | some content =>
          have hsent : FtpCommand.put? ⟨command, files⟩ = some (cstr path, content) := by
            simp [FtpCommand.put?, hdrop, hfile]
          refine .inr ⟨cstr path, content, hsent, hfile, ?_, hloop⟩
          have hlen := command.property
          have hle := strlen_cstr_le path
          rw [CStr.strlen, SqlText.eq_of_dropPrefix?_eq_some hdrop, List.length_append] at hlen
          omega
    · have hnone : command.val.bytes.dropPrefix? (utf8 "put ") = none := by
        by_contra hsome
        obtain ⟨path, hdrop⟩ := Option.ne_none_iff_exists'.mp hsome
        exact hput (congrArg Prod.fst (mySplit_of_dropPrefix? hdrop))
      refine .inl ⟨by simp [FtpCommand.put?, hnone], ?_⟩
      rw [ftpLoop, if_neg hexit, if_neg hls]
      dsimp only
      rw [if_neg hput]

/-! ## One file -/

/-- The buffer keeps its header while a file is sent. -/
theorem stMsgHead_sendFileLoop (msg : MsgData) (fp : Bytes) :
    (sendFileLoop msg fp).1.stMsgHead = msg.stMsgHead := by
  induction fp using cut_induction (n := maxWordLen) (by decide) generalizing msg with
  | nil => rw [sendFileLoop_nil]
  | step fp hfp ih =>
      rw [sendFileLoop_of_ne_nil msg hfp]
      exact ih _

theorem stMsgHead_doSendFile (msg : MsgData) {path : CStr} {files : Files} {content : Bytes}
    (hfile : files path = some content) :
    (doSendFile msg path files).1.stMsgHead = msg.stMsgHead.forFile path content := by
  rw [doSendFile, hfile]
  exact stMsgHead_sendFileLoop _ content

/-- Frames leave the files of other names. -/
theorem files_recvFrames_of_ne {pcName name : CStr} {frames : List FileFrame}
    (hname : ∀ f ∈ frames, f.filename ≠ name) (state : RecvState) :
    (recvFrames pcName state frames).files name = state.files name := by
  induction frames generalizing state with
  | nil => rfl
  | cons f rest ih =>
      obtain ⟨hf, hrest⟩ := List.forall_mem_cons.mp hname
      rw [recvFrames, List.foldl_cons]
      exact (ih hrest _).trans (files_doRecvFile_of_ne hf.symm)

theorem length_snd_doSendFile (msg : MsgData) {path : CStr} {files : Files} {content : Bytes}
    (hfile : files path = some content) :
    (doSendFile msg path files).2.length = (cut maxWordLen content).length := by
  rw [snd_doSendFile hfile, List.length_map, fileFrames, List.length_map]

theorem filename_of_mem_answered {head : MsgHead} {path : CStr} (hpath : head.filename.Holds path)
    {io : ℕ → FileAnswer} {chunks : List Bytes} {f : FileFrame}
    (hf : f ∈ answered head io chunks) : f.filename = path := by
  induction chunks generalizing io with
  | nil => exact absurd hf List.not_mem_nil
  | cons chunk rest ih =>
      rw [answered] at hf
      split_ifs at hf
      · exact ih hf
      · rcases List.mem_cons.mp hf with rfl | hf
        · exact MsgData.filenameStr_of_holds hpath
        · exact ih hf

/-- A file that is sent leaves the receiver's other files. -/
theorem files_transferFile_of_ne {s : ServerState} {cFd : ℕ} {pDestNode : Node} {buf : MsgData}
    {pcName path : CStr} {senderFiles : Files} {content : Bytes}
    (htype : buf.stMsgHead.enMsgType = MsgType.sendFile.code)
    (hdes : buf.stMsgHead.desName.Holds pcName)
    (honline : searchName s.g_pList pcName = some pDestNode)
    (hpath : path.strlen ≤ maxNameLen) (hfile : senderFiles path = some content) {name : CStr}
    (hname : name ≠ path) (io : ℕ → FileAnswer) (state : RecvState) :
    (transferFile s cFd pDestNode.sfd pcName io state (doSendFile buf path senderFiles).2).files
      name = state.files name := by
  rw [transferFile_doSendFile htype hdes honline hfile cFd io state]
  refine files_recvFrames_of_ne ?_ state
  intro f hf
  have hholds : (buf.stMsgHead.forFile path content).filename.Holds path :=
    CharArray.holds_strcpy buf.stMsgHead.filename (Nat.lt_succ_of_le hpath)
  rw [filename_of_mem_answered hholds hf]
  exact hname.symm

/-! ## The whole dialogue -/

theorem putFiles_cons {c : FtpCommand} {rest : List FtpCommand}
    (hexit : c.command.val ≠ lit "exit") :
    putFiles (c :: rest) = c.put?.toList ++ putFiles rest := by
  rw [putFiles, List.takeWhile_cons_of_pos (by simpa using hexit)]
  cases hput : c.put? with
  | none => rw [List.filterMap_cons_none hput]; rfl
  | some p => rw [List.filterMap_cons_some hput]; rfl

theorem putFiles_exit {c : FtpCommand} (rest : List FtpCommand)
    (hexit : c.command.val = lit "exit") : putFiles (c :: rest) = [] := by
  simp [putFiles, hexit]

/-- The frames in which the files are sent. -/
def frameCount (files : List (CStr × Bytes)) : ℕ :=
  (files.map fun p => (cut maxWordLen p.2).length).sum

@[simp] theorem frameCount_cons (p : CStr × Bytes) (rest : List (CStr × Bytes)) :
    frameCount (p :: rest) = (cut maxWordLen p.2).length + frameCount rest := by
  rw [frameCount, List.map_cons, List.sum_cons, frameCount]

theorem forall_lt_add_iff {m n : ℕ} {P : ℕ → Prop} :
    (∀ i < m + n, P i) ↔ (∀ i < m, P i) ∧ ∀ i < n, P (m + i) := by
  constructor
  · exact fun h => ⟨fun i hi => h i (by omega), fun i hi => h (m + i) (by omega)⟩
  · rintro ⟨hfirst, hrest⟩ i hi
    by_cases him : i < m
    · exact hfirst i him
    · have hback := hrest (i - m) (by omega)
      rwa [Nat.add_sub_cancel' (by omega)] at hback

section
variable {s : ServerState} {cFd : ℕ} {pDestNode : Node} {src pcName : CStr}
  (hother : src ≠ pcName) (honline : searchName s.g_pList pcName = some pDestNode)

include honline in
/-- The files that are not sent stay as they are. -/
theorem files_ftpLoop_of_ne {commands : List FtpCommand} {name : CStr}
    (hname : name ∉ (putFiles commands).map Prod.fst) {buf : MsgData}
    (htype : buf.stMsgHead.enMsgType = MsgType.sendFile.code)
    (hdes : buf.stMsgHead.desName.Holds pcName) (io : ℕ → FileAnswer) (state : RecvState) :
    (transferFile s cFd pDestNode.sfd pcName io state (ftpLoop buf commands).2).files name =
      state.files name := by
  induction commands generalizing buf io state with
  | nil => rfl
  | cons c rest ih =>
      by_cases hexit : c.command.val = lit "exit"
      · rw [ftpLoop, if_pos hexit]
        rfl
      · rw [putFiles_cons hexit] at hname
        rcases snd_ftpLoop_cons buf rest hexit with ⟨hnone, hloop⟩ |
          ⟨path, content, hput, hfile, hpath, hloop⟩
        · rw [hnone] at hname
          rw [hloop]
          exact ih hname htype hdes io state
        · rw [hput, Option.toList_some, List.singleton_append, List.map_cons,
            List.mem_cons, not_or] at hname
          have hhead := stMsgHead_doSendFile buf hfile
          rw [hloop, transferFile_append, ih hname.2 (by rw [hhead]; exact htype)
            (by rw [hhead]; exact hdes)]
          exact files_transferFile_of_ne htype hdes honline hpath hfile hname.1 io state

include hother honline in
/-- The files of one dialogue, of different names that are new to the receiver, all arrive as they
are exactly if each of them is transferable and the receiver's file operations succeed. -/
theorem ftpLoop_iff {commands : List FtpCommand} {buf : MsgData}
    (htype : buf.stMsgHead.enMsgType = MsgType.sendFile.code)
    (hsrc : buf.stMsgHead.srcName.Holds src) (hdes : buf.stMsgHead.desName.Holds pcName)
    (hpaths : ((putFiles commands).map Prod.fst).Nodup) {io : ℕ → FileAnswer} {state : RecvState}
    (hnew : ∀ p ∈ putFiles commands, state.files p.1 = none)
    (hsize : ∀ p ∈ putFiles commands, p.2.length < 2 ^ 31 - 255)
    (hcount : state.filePacketNum = 0) :
    (∀ p ∈ putFiles commands, (transferFile s cFd pDestNode.sfd pcName io state
        (ftpLoop buf commands).2).files p.1 = some p.2) ↔
      (∀ p ∈ putFiles commands, Transferable p.1 p.2) ∧
        ∀ i < frameCount (putFiles commands), io i = .written := by
  induction commands generalizing buf io state with
  | nil => simp [putFiles, frameCount]
  | cons c rest ih =>
      by_cases hexit : c.command.val = lit "exit"
      · simp [putFiles_exit rest hexit, frameCount]
      · rw [putFiles_cons hexit] at hpaths hnew hsize ⊢
        rcases snd_ftpLoop_cons buf rest hexit with ⟨hnone, hloop⟩ |
          ⟨path, content, hput, hfile, hpath, hloop⟩
        · rw [hnone] at hpaths hnew hsize ⊢
          rw [hloop]
          exact ih htype hsrc hdes hpaths hnew hsize hcount
        · simp only [hput, Option.toList_some, List.singleton_append, List.map_cons,
            List.nodup_cons, List.forall_mem_cons, frameCount_cons, forall_lt_add_iff]
            at hpaths hnew hsize ⊢
          obtain ⟨hfirst, hpaths⟩ := hpaths
          have hhead := stMsgHead_doSendFile buf hfile
          have htype' : (doSendFile buf path c.files).1.stMsgHead.enMsgType =
              MsgType.sendFile.code := by
            rw [hhead]
            exact htype
          have hdes' : (doSendFile buf path c.files).1.stMsgHead.desName.Holds pcName := by
            rw [hhead]
            exact hdes
          have hsrc' : (doSendFile buf path c.files).1.stMsgHead.srcName.Holds src := by
            rw [hhead]
            exact hsrc
          let after := transferFile s cFd pDestNode.sfd pcName io state
            (doSendFile buf path c.files).2
          let later := fun i => io ((cut maxWordLen content).length + i)
          have hkept : (transferFile s cFd pDestNode.sfd pcName later after
              (ftpLoop (doSendFile buf path c.files).1 rest).2).files path = after.files path :=
            files_ftpLoop_of_ne honline hfirst htype' hdes' later after
          obtain ⟨hone, hzero⟩ : (after.files path = some content ↔
                FilesServed c.files path content io ∧ Transferable path content) ∧
              (after.files path = some content → after.filePacketNum = 0) :=
            content_transferFile_iff htype hsrc hdes hother honline hpath
              (fun d hd => Option.some.inj (hd.symm.trans hfile)) hsize.1 hnew.1 hcount
          -- a file that has arrived leaves the counter at 0, so the others start as if alone
          have hrest : after.files path = some content →
              ((∀ p ∈ putFiles rest, (transferFile s cFd pDestNode.sfd pcName later after
                  (ftpLoop (doSendFile buf path c.files).1 rest).2).files p.1 = some p.2) ↔
                (∀ p ∈ putFiles rest, Transferable p.1 p.2) ∧
                  ∀ i < frameCount (putFiles rest), later i = .written) := by
            intro hcontent
            refine ih htype' hsrc' hdes' hpaths ?_ hsize.2 (hzero hcontent)
            intro p hp
            have hne : p.1 ≠ path := fun heq => hfirst (heq ▸ List.mem_map_of_mem hp)
            exact (files_transferFile_of_ne htype hdes honline hpath hfile hne io state).trans
              (hnew.2 p hp)
          rw [hloop, transferFile_append, length_snd_doSendFile buf hfile, hkept]
          constructor
          · rintro ⟨hcontent, hothers⟩
            obtain ⟨hserved, hfits⟩ := hone.mp hcontent
            obtain ⟨hfits', hserved'⟩ := (hrest hcontent).mp hothers
            exact ⟨⟨hfits, hfits'⟩, hserved.written, hserved'⟩
          · rintro ⟨⟨hfits, hfits'⟩, hserved, hserved'⟩
            have hcontent := hone.mpr ⟨⟨hfile, hserved⟩, hfits⟩
            exact ⟨hcontent, (hrest hcontent).mpr ⟨hfits', hserved'⟩⟩

include hother in
/-- All files that a user sends to an online user in one dialogue, by "put" and a path among any
other commands, arrive as they are exactly if each of them is transferable and the receiver's file
operations succeed for every frame. -/
theorem fileDialogue_iff {pClientData : MsgData} {recvName : RecvName} {commands : List FtpCommand}
    (hname : recvName.val = pcName) (hexit : pcName ≠ lit "exit")
    (honline : searchName s.g_pList pcName = some pDestNode)
    (hsrc : pClientData.stMsgHead.srcName.Holds src)
    (hpaths : ((putFiles commands).map Prod.fst).Nodup) {io : ℕ → FileAnswer} {state : RecvState}
    (hnew : ∀ p ∈ putFiles commands, state.files p.1 = none)
    (hsize : ∀ p ∈ putFiles commands, p.2.length < 2 ^ 31 - 255)
    (hcount : state.filePacketNum = 0) :
    (∀ p ∈ putFiles commands, (transferFile s cFd pDestNode.sfd pcName io state
        (dispatchClientRequest pClientData [.sendFile recvName commands])).files p.1 = some p.2) ↔
      (∀ p ∈ putFiles commands, Transferable p.1 p.2) ∧
        ∀ i < frameCount (putFiles commands), io i = .written := by
  subst hname
  have hdes : ∀ a : CharArray 32, (a.strcpy recvName.val).Holds recvName.val := fun a =>
    CharArray.holds_strcpy a (recvName.property.trans_lt (by decide))
  simp only [dispatchClientRequest, dispatchMsg, sendFile2One, if_neg hexit, List.append_nil]
  refine ftpLoop_iff hother honline ?_ ?_ ?_ hpaths hnew hsize hcount
  · rfl
  · exact hsrc
  · exact hdes _

end

/-- Two short texts in the directory. -/
def twoTexts : Files := fun path =>
  if path = lit "a.txt" then some (utf8 "hello")
  else if path = lit "my notes" then some (utf8 "world")
  else none

def twoPuts : List FtpCommand :=
  [⟨⟨lit "put a.txt", by decide⟩, twoTexts⟩, ⟨⟨lit "ls", by decide⟩, twoTexts⟩,
    ⟨⟨lit "put my notes", by decide⟩, twoTexts⟩, ⟨⟨lit "exit", by decide⟩, twoTexts⟩]

theorem putFiles_twoPuts :
    putFiles twoPuts = [(lit "a.txt", utf8 "hello"), (lit "my notes", utf8 "world")] := by
  decide

theorem transferable_twoPuts : ∀ p ∈ putFiles twoPuts, Transferable p.1 p.2 := by
  rw [putFiles_twoPuts, List.forall_mem_cons, List.forall_mem_singleton]
  exact ⟨⟨by decide, by decide, by decide⟩, ⟨by decide, by decide, by decide⟩⟩

/-- Both texts arrive. -/
theorem fileDialogue_twoPuts :
    let s : ServerState := ⟨Mysql.reference, ⟨[], [], []⟩, [⟨lit "b", 5⟩], ⟨0, 0, 0⟩⟩
    let buf := MsgData.make .sendFile (lit "a") (lit "") (lit "")
    ∀ p ∈ putFiles twoPuts, (transferFile s 6 5 (lit "b") (fun _ => .written)
        ⟨fun _ => none, 0⟩
        (dispatchClientRequest buf [.sendFile ⟨lit "b", by decide⟩ twoPuts])).files p.1 =
          some p.2 := by
  intro s buf
  have hsrc : buf.stMsgHead.srcName.Holds (lit "a") := by decide
  have hpaths : ((putFiles twoPuts).map Prod.fst).Nodup := by
    rw [putFiles_twoPuts]
    decide
  have hsize : ∀ p ∈ putFiles twoPuts, p.2.length < 2 ^ 31 - 255 := by
    rw [putFiles_twoPuts, List.forall_mem_cons, List.forall_mem_singleton]
    decide
  have honline : searchName s.g_pList (lit "b") = some ⟨lit "b", 5⟩ := by decide
  have hother : lit "a" ≠ lit "b" := by decide
  have hexit : lit "b" ≠ lit "exit" := by decide
  exact (fileDialogue_iff hother rfl hexit honline hsrc hpaths (fun _ _ => rfl) hsize rfl).mpr
    ⟨transferable_twoPuts, fun _ _ => rfl⟩

end ChatRoom
