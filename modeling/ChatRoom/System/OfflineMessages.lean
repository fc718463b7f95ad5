import ChatRoom.Client.Mailbox
import ChatRoom.Server.Handlers

/-!
# Messages to users who are offline

A message to a friend who is not registered goes through two buffers: the statement of the
server's insert, and the line in which the receiver's client shows the row before it
deletes it.  The first is the narrower one.
-/

namespace ChatRoom

open CString SqlText

/-- The row that a frame should leave in the message table. -/
def rowOf (s : ServerState) (frame : MsgData) : MessageRow :=
  ⟨frame.srcNameStr.bytes, frame.desNameStr.bytes, frame.pDataStr.bytes, getMsgTime s.now⟩

/-- A row with sender, text and time in full. -/
def fullLine (row : MessageRow) : Bytes :=
  row.srcName ++ 58 :: (row.words ++ 9 :: row.time)

/-- The frame is stored as a new row, and the next call of the receiver shows this row in
full as its last line. -/
def SurvivesStorage (s : ServerState) (frame : MsgData) (cFd : ℕ) : Prop :=
  let stored := (procSendMsg2One s frame frame.desNameStr cFd).tables
  stored.message = s.tables.message ++ [rowOf s frame] ∧
    ∃ earlier result, getUserMsgFromMysql s.mysql stored frame.desNameStr = some result ∧
      result.printed = earlier ++ [fullLine (rowOf s frame)]

/-- A row is shown in full exactly if sender, text and time have at most 61 bytes. -/
theorem displayLine_eq_fullLine_iff (row : MessageRow) :
    displayLine [row.srcName, row.words, row.time] = fullLine row ↔
      row.srcName.length + row.words.length + row.time.length ≤ 61 := by
  have hformat : format (utf8 "%s:%s\t%s") [row.srcName, row.words, row.time] =
      row.srcName ++ 58 :: (row.words ++ 9 :: (row.time ++ [])) := rfl
  rw [displayLine, hformat, List.append_nil, ← fullLine, snprintf_eq_self_iff (by decide)]
  simp only [fullLine, List.length_append, List.length_cons]
  omega

section
variable {s : ServerState} {frame : MsgData} {src des : CStr}
  (hm : s.mysql.Documented)
  (hsrc : frame.stMsgHead.srcName.Holds src) (hdes : frame.stMsgHead.desName.Holds des)
  (hsrcPlain : Plain src.bytes) (hdesPlain : Plain des.bytes)
  (hbodyPlain : Plain frame.pDataStr.bytes)
include hm hsrc hdes hsrcPlain hdesPlain hbodyPlain

/-- The tables after a message to a friend who is not registered. -/
theorem tables_procSendMsg2One (hfriend : (src.bytes, des.bytes) ∈ s.tables.friends)
    (hoffline : ∀ p ∈ s.g_pList, p.name ≠ des) (cFd : ℕ) :
    (procSendMsg2One s frame frame.desNameStr cFd).tables =
      if src.strlen + des.strlen + frame.pDataStr.strlen + (getMsgTime s.now).length ≤ 60 then
        { s.tables with message := s.tables.message ++ [rowOf s frame] }
      else s.tables := by
  have hsrcStr := MsgData.srcNameStr_of_holds hsrc
  have hdesStr := MsgData.desNameStr_of_holds hdes
  have hcheck := checkReciverIsFriend_documented hm (t := s.tables) hsrcStr hsrcPlain hdesPlain
    (Nat.le_of_lt_succ hsrc.strlen_lt) (Nat.le_of_lt_succ hdes.strlen_lt)
  rw [if_pos hfriend] at hcheck
  have hinsert := insertUserMsg2Mysql_documented hm (t := s.tables) hsrcStr hsrcPlain hdesPlain
    hbodyPlain s.now
  rw [hdesStr]
  simp only [procSendMsg2One, hcheck, searchName_eq_none_iff.mpr hoffline, hinsert, returning,
    rowOf, hsrcStr, hdesStr]

omit hsrcPlain hbodyPlain in
/-- The row of a new message is the last one that its receiver is shown. -/
theorem printed_of_stored {t : Tables}
    (hstored : t.message = s.tables.message ++ [rowOf s frame]) :
    ∃ earlier result, getUserMsgFromMysql s.mysql t frame.desNameStr = some result ∧
      result.printed = earlier ++ [displayLine [src.bytes, frame.pDataStr.bytes,
        getMsgTime s.now]] := by
  have hsrcStr := MsgData.srcNameStr_of_holds hsrc
  have hdesStr := MsgData.desNameStr_of_holds hdes
  have hcall := getUserMsgFromMysql_documented hm t hdesPlain
    (Nat.le_of_lt_succ hdes.strlen_lt)
  rw [hdesStr]
  refine ⟨mailboxHeading :: (messageRows s.tables des.bytes).map displayLine, _, hcall, ?_⟩
  simp [messageRows, hstored, rowOf, hsrcStr, hdesStr]

/-- An offline message between friends survives storage exactly if the two names, the text
and the time have at most 60 bytes together. -/
theorem survivesStorage_iff (hfriend : (src.bytes, des.bytes) ∈ s.tables.friends)
    (hoffline : ∀ p ∈ s.g_pList, p.name ≠ des) (cFd : ℕ) :
    SurvivesStorage s frame cFd ↔
      src.strlen + des.strlen + frame.pDataStr.strlen + (getMsgTime s.now).length ≤ 60 := by
  have htables := tables_procSendMsg2One hm hsrc hdes hsrcPlain hdesPlain hbodyPlain hfriend
    hoffline cFd
  constructor
  · rintro ⟨hstored, -⟩
    by_contra hlong
    rw [htables, if_neg hlong] at hstored
    exact absurd (congrArg List.length hstored) (by simp)
  · intro hfits
    rw [if_pos hfits] at htables
    have hstored : (procSendMsg2One s frame frame.desNameStr cFd).tables.message =
        s.tables.message ++ [rowOf s frame] := by
      rw [htables]
    obtain ⟨earlier, result, hcall, hprinted⟩ := printed_of_stored hm hsrc hdes hdesPlain hstored
    have hline : displayLine [src.bytes, frame.pDataStr.bytes, getMsgTime s.now] =
        fullLine (rowOf s frame) := by
      have hshown := (displayLine_eq_fullLine_iff (rowOf s frame)).mpr
      simp only [rowOf, MsgData.srcNameStr_of_holds hsrc] at hshown ⊢
      refine hshown ?_
      simp only [CStr.strlen] at hfits
      omega
    exact ⟨hstored, earlier, result, hcall, by rw [hprinted, hline]⟩

end

/-- A short message between friends survives. -/
theorem survivesStorage_hello :
    let s : ServerState :=
      ⟨Mysql.reference, ⟨[], [(utf8 "alice", utf8 "bob")], []⟩, [], ⟨12, 30, 0⟩⟩
    SurvivesStorage s (MsgData.make .sendOne (lit "alice") (lit "bob") (lit "hello")) 5 := by
  intro s
  let frame := MsgData.make .sendOne (lit "alice") (lit "bob") (lit "hello")
  have hsrc : frame.stMsgHead.srcName.Holds (lit "alice") := by decide
  have hdes : frame.stMsgHead.desName.Holds (lit "bob") := by decide
  have hbody : Plain frame.pDataStr.bytes := by decide +kernel
  have hfriend : ((lit "alice").bytes, (lit "bob").bytes) ∈ s.tables.friends := by decide
  have hoffline : ∀ p ∈ s.g_pList, p.name ≠ lit "bob" := fun p hp => absurd hp List.not_mem_nil
  have hfits : (lit "alice").strlen + (lit "bob").strlen + frame.pDataStr.strlen +
      (getMsgTime s.now).length ≤ 60 := by
    decide +kernel
  exact (survivesStorage_iff Mysql.reference_documented hsrc hdes (by decide) (by decide) hbody
    hfriend hoffline 5).mpr hfits

/-- A text of 60 bytes is not stored: its statement is cut inside the text. -/
theorem not_survivesStorage :
    ¬ ∀ (s : ServerState) (frame : MsgData) (src des : CStr) (cFd : ℕ),
      s.mysql.Documented →
      frame.stMsgHead.srcName.Holds src → frame.stMsgHead.desName.Holds des →
      1 ≤ src.strlen → src.strlen ≤ 30 → 1 ≤ des.strlen → des.strlen ≤ 30 →
      Plain src.bytes → Plain des.bytes →
      1 ≤ frame.pDataStr.strlen → Plain frame.pDataStr.bytes →
      (src.bytes, des.bytes) ∈ s.tables.friends → (∀ p ∈ s.g_pList, p.name ≠ des) →
        SurvivesStorage s frame cFd := by
  intro h
  let s : ServerState :=
    ⟨Mysql.reference, ⟨[], [(utf8 "alice", utf8 "bob")], []⟩, [], ⟨12, 30, 0⟩⟩
  let frame := MsgData.make .sendOne (lit "alice") (lit "bob") (cstr (List.replicate 60 97))
  have hsrc : frame.stMsgHead.srcName.Holds (lit "alice") := by decide
  have hdes : frame.stMsgHead.desName.Holds (lit "bob") := by decide
  have hbody : Plain frame.pDataStr.bytes := by decide +kernel
  have hfriend : ((lit "alice").bytes, (lit "bob").bytes) ∈ s.tables.friends := by decide
  have hoffline : ∀ p ∈ s.g_pList, p.name ≠ lit "bob" := fun p hp => absurd hp List.not_mem_nil
  have hstored := (h s frame (lit "alice") (lit "bob") 5 Mysql.reference_documented hsrc hdes
    (by decide) (by decide) (by decide) (by decide) (by decide) (by decide) (by decide +kernel)
    hbody hfriend hoffline).1
  rw [tables_procSendMsg2One Mysql.reference_documented hsrc hdes (by decide) (by decide) hbody
    hfriend hoffline, if_neg (by decide +kernel)] at hstored
  exact absurd (congrArg List.length hstored) (by simp)

end ChatRoom
