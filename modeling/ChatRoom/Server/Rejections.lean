import ChatRoom.Server.Effects

/-!
# Rejections

A handler that rejects a request sends the frame back with a text in its body.  Three of the four
copy the text without a terminator over the body of the request, whose rest then follows it;
`procSendFile2One` clears the body before.
-/

namespace ChatRoom

open CString

/-- The text with which a request of the type is rejected. -/
def retMsg : MsgType → CStr
  | .addFriend => addFriendRetMsg
  | .delFriend => delFriendRetMsg
  | .sendOne => sendMsg2OneRetMsg
  | .sendFile => sendFile2OneRetMsg
  | _ => lit ""

/-- The handler rejects the frame. -/
def Rejects (s : ServerState) (enMsgType : MsgType) (pstData : MsgData) (pcDesName : CStr) : Prop :=
  match enMsgType with
  | .addFriend => checkUserIsExist s.mysql s.tables pcDesName = some .failed
  | .delFriend | .sendOne => checkReciverIsFriend s.mysql s.tables pstData pcDesName = some .failed
  | .sendFile => searchName s.g_pList pcDesName = none
  | _ => False

/-- The frame that a rejected sender gets back. -/
def rejection (enMsgType : MsgType) (pstData : MsgData) : Bytes :=
  match enMsgType with
  | .sendFile => (pstData.clearBody.copyText (retMsg enMsgType)).shortFrame
  | _ => (pstData.copyText (retMsg enMsgType)).toBytes

/-- The handler writes one frame, back to the sender, whose body reads as the text. -/
def SaysRetMsg (s : ServerState) (enMsgType : MsgType) (pstData : MsgData) (pcDesName : CStr)
    (srcFd : ℕ) : Prop :=
  ∃ bytes, (astProcClientOptFunc enMsgType s pstData pcDesName srcFd).effects =
      [.reply srcFd bytes] ∧
    cstr (bytes.drop sizeofMsgHead) = retMsg enMsgType

variable {s : ServerState} {enMsgType : MsgType} {pstData : MsgData} {pcDesName : CStr} {srcFd : ℕ}

theorem effects_of_rejects (h : Rejects s enMsgType pstData pcDesName) (srcFd : ℕ) :
    (astProcClientOptFunc enMsgType s pstData pcDesName srcFd).effects =
      [.reply srcFd (rejection enMsgType pstData)] := by
  cases enMsgType with
  | addFriend =>
      have hcheck : checkUserIsExist s.mysql s.tables pcDesName = some .failed := h
      rw [astProcClientOptFunc, effects_procAddFriendMsg, hcheck]
      rfl
  | delFriend =>
      have hcheck : checkReciverIsFriend s.mysql s.tables pstData pcDesName = some .failed := h
      rw [astProcClientOptFunc, effects_procDelFriendMsg, hcheck]
      rfl
  | sendOne =>
      have hcheck : checkReciverIsFriend s.mysql s.tables pstData pcDesName = some .failed := h
      rw [astProcClientOptFunc, effects_procSendMsg2One, hcheck]
      rfl
  | sendFile =>
      have hsearch : searchName s.g_pList pcDesName = none := h
      rw [astProcClientOptFunc, effects_procSendFile2One, hsearch]
      rfl
  | showAll | showFriend | sendAll | banOne | logout => exact h.elim

/-! ## The body of a rejection -/

/-- Every text leaves room in the body. -/
theorem strlen_retMsg_lt (enMsgType : MsgType) : (retMsg enMsgType).strlen < maxWordLen := by
  cases enMsgType <;> decide +kernel

/-- A rejection of the three is the header, the text and the rest of the body. -/
theorem rejection_eq (htype : enMsgType ≠ .sendFile) (pstData : MsgData) :
    rejection enMsgType pstData = pstData.stMsgHead.toBytes ++ ((retMsg enMsgType).bytes ++
      pstData.pData.bytes.drop (retMsg enMsgType).strlen) := by
  have hlen := strlen_retMsg_lt enMsgType
  have hbody : (pstData.copyText (retMsg enMsgType)).pData.bytes =
      (retMsg enMsgType).bytes ++ pstData.pData.bytes.drop (retMsg enMsgType).strlen :=
    CharArray.bytes_store (Nat.le_succ_of_le (Nat.le_of_lt hlen))
  rw [← hbody]
  cases enMsgType <;> first | rfl | exact absurd rfl htype

/-- A rejected file frame has a body of its own. -/
theorem rejection_sendFile (pstData : MsgData) :
    rejection .sendFile pstData = pstData.stMsgHead.toBytes ++ ((retMsg .sendFile).bytes ++
      List.replicate (maxWordLen - (retMsg .sendFile).strlen) 0) := by
  have hlen := strlen_retMsg_lt .sendFile
  have hbody : (pstData.clearBody.copyText (retMsg .sendFile)).pData.bytes =
      (retMsg .sendFile).bytes ++ List.replicate (256 - (retMsg .sendFile).strlen) 0 :=
    CharArray.bytes_ofBytes (Nat.le_succ_of_le (Nat.le_of_lt hlen))
  rw [rejection, MsgData.shortFrame, MsgData.take_toBytes, hbody, List.take_append,
    List.take_of_length_le (Nat.le_of_lt hlen), List.take_replicate]
  rfl

theorem saysRetMsg_iff_cstr (h : Rejects s enMsgType pstData pcDesName) :
    SaysRetMsg s enMsgType pstData pcDesName srcFd ↔
      cstr ((rejection enMsgType pstData).drop sizeofMsgHead) = retMsg enMsgType := by
  rw [SaysRetMsg, effects_of_rejects h]
  constructor
  · rintro ⟨bytes, hbytes, hreads⟩
    cases hbytes
    exact hreads
  · exact fun hreads => ⟨_, rfl, hreads⟩

/-! ## The rule -/

/-- A rejection reads as its text exactly if the body was cleared, or happens to have a terminator
where the text ends; and two rejected frames with different bodies are answered alike exactly if the
body was cleared, or the bodies agree from there on. -/
theorem saysRetMsg_iff (h : Rejects s enMsgType pstData pcDesName) :
    (SaysRetMsg s enMsgType pstData pcDesName srcFd ↔
        enMsgType = .sendFile ∨
          pstData.pData.bytes[(retMsg enMsgType).strlen]? = some 0) ∧
      ∀ pData, Rejects s enMsgType { pstData with pData } pcDesName →
        ((astProcClientOptFunc enMsgType s pstData pcDesName srcFd).effects =
            (astProcClientOptFunc enMsgType s { pstData with pData } pcDesName srcFd).effects ↔
          enMsgType = .sendFile ∨
            pstData.pData.bytes.drop (retMsg enMsgType).strlen =
              pData.bytes.drop (retMsg enMsgType).strlen) := by
  rw [saysRetMsg_iff_cstr h]
  by_cases htype : enMsgType = .sendFile
  · subst htype
    refine ⟨iff_of_true ?_ (.inl rfl), fun pData h' => iff_of_true ?_ (.inl rfl)⟩
    · rw [rejection_sendFile, List.drop_left' (MsgHead.length_toBytes _), cstr_append_eq_iff]
      intro b hb
      exact List.eq_of_mem_replicate (List.mem_of_mem_head? hb)
    · rw [effects_of_rejects h, effects_of_rejects h']
      rfl
  · refine ⟨?_, fun pData h' => ?_⟩
    · have hlen : (retMsg enMsgType).strlen < pstData.pData.bytes.length := by
        rw [CharArray.length_bytes]
        exact Nat.lt_succ_of_lt (strlen_retMsg_lt enMsgType)
      rw [rejection_eq htype, List.drop_left' (MsgHead.length_toBytes _), cstr_append_eq_iff,
        List.head?_drop, List.getElem?_eq_getElem hlen]
      simp [htype]
    · rw [effects_of_rejects h, effects_of_rejects h', rejection_eq htype, rejection_eq htype]
      simp [htype]

/-- A short request for a user who does not exist. -/
theorem saysRetMsg_short :
    SaysRetMsg ⟨Mysql.reference, ⟨[], [], []⟩, [], ⟨0, 0, 0⟩⟩ .addFriend
        (MsgData.make .addFriend (lit "a") (lit "b") (lit "hello")) (lit "b") 5 := by
  have hrejects : Rejects ⟨Mysql.reference, ⟨[], [], []⟩, [], ⟨0, 0, 0⟩⟩ .addFriend
      (MsgData.make .addFriend (lit "a") (lit "b") (lit "hello")) (lit "b") := by
    change checkUserIsExist _ _ _ = some .failed
    decide +kernel
  exact (saysRetMsg_iff hrejects).1.mpr (.inr (by decide +kernel))

/-- The body of the request is longer than the text, and shows behind it. -/
theorem not_saysRetMsg :
    ¬ ∀ (s : ServerState) (enMsgType : MsgType) (pstData : MsgData) (body pcDesName : CStr)
      (srcFd : ℕ), s.mysql.Documented → pstData.pData.Holds body →
        Rejects s enMsgType pstData pcDesName →
          SaysRetMsg s enMsgType pstData pcDesName srcFd := by
  intro h
  let s : ServerState := ⟨Mysql.reference, ⟨[], [], []⟩, [], ⟨0, 0, 0⟩⟩
  let body := lit "Please add me, we have met at the fair in spring"
  let frame := MsgData.make .addFriend (lit "a") (lit "b") body
  have hrejects : Rejects s .addFriend frame (lit "b") := by
    change checkUserIsExist _ _ _ = some .failed
    decide +kernel
  have hsays := h s .addFriend frame body (lit "b") 5 Mysql.reference_documented
    (CharArray.holds_strcpy _ (by decide +kernel)) hrejects
  obtain ⟨bytes, hbytes, hreads⟩ := hsays
  rw [effects_of_rejects hrejects] at hbytes
  cases hbytes
  exact absurd hreads (by decide +kernel)

end ChatRoom
