import ChatRoom.Server.Handlers

/-!
# What the handlers write

For each handler, its writes as a function of the look-ups it makes.  Everything
that is proved about sockets starts from these equations.
-/

namespace ChatRoom

open CString

variable {s : ServerState} {pstData : MsgData} {pcDesName : CStr} {srcFd : ℕ}

@[simp] theorem effects_returning (t : Tables) (effects : List Effect)
    (ulErrCode : Option ErrCode) : (returning t effects ulErrCode).effects = effects := rfl

@[simp] theorem effects_exiting (t : Tables) (effects : List Effect) :
    (exiting t effects).effects = effects := rfl

/-- The writes of a handler that first makes a look-up: a refusal in full size when
the look-up fails, else the accepted writes; none when it ends the process. -/
def checked (found : Option ErrCode) (srcFd : ℕ) (refusal : MsgData)
    (accepted : List Effect) : List Effect :=
  match found with
  | none => []
  | some .failed => [.reply srcFd refusal.toBytes]
  | some .success => accepted

theorem mem_checked {found : Option ErrCode} {refusal : MsgData} {accepted : List Effect}
    {e : Effect} :
    e ∈ checked found srcFd refusal accepted ↔
      (found = some .failed ∧ e = .reply srcFd refusal.toBytes) ∨
        (found = some .success ∧ e ∈ accepted) := by
  rcases found with _ | _ | _ <;> simp [checked]

theorem effects_procAddFriendMsg :
    (procAddFriendMsg s pstData pcDesName srcFd).effects =
      checked (checkUserIsExist s.mysql s.tables pcDesName) srcFd
        (pstData.copyText addFriendRetMsg)
        ((searchName s.g_pList pcDesName).toList.map (.relay · pstData.shortFrame)) := by
  rw [procAddFriendMsg]
  rcases checkUserIsExist s.mysql s.tables pcDesName with _ | _ | _
  · rfl
  · cases searchName s.g_pList pcDesName <;> rfl
  · rfl

theorem effects_procDelFriendMsg :
    (procDelFriendMsg s pstData pcDesName srcFd).effects =
      checked (checkReciverIsFriend s.mysql s.tables pstData pcDesName) srcFd
        (pstData.copyText delFriendRetMsg)
        ((deleteFriendFromMysql s.mysql s.tables pstData pcDesName).toList.map fun _ =>
          .reply srcFd (pstData.clearBody.copyText delFriendDoneMsg).shortFrame) := by
  rw [procDelFriendMsg]
  rcases checkReciverIsFriend s.mysql s.tables pstData pcDesName with _ | _ | _
  · rfl
  · cases deleteFriendFromMysql s.mysql s.tables pstData pcDesName <;> rfl
  · rfl

theorem effects_procSendMsg2One :
    (procSendMsg2One s pstData pcDesName srcFd).effects =
      checked (checkReciverIsFriend s.mysql s.tables pstData pcDesName) srcFd
        (pstData.copyText sendMsg2OneRetMsg)
        ((searchName s.g_pList pcDesName).toList.map (.relay · pstData.shortFrame)) := by
  rw [procSendMsg2One]
  rcases checkReciverIsFriend s.mysql s.tables pstData pcDesName with _ | _ | _
  · rfl
  · cases searchName s.g_pList pcDesName with
    | none => cases insertUserMsg2Mysql s.mysql s.tables s.now pstData pcDesName <;> rfl
    | some pDestNode => rfl
  · rfl

theorem effects_procSendMsg2All :
    (procSendMsg2All s pstData pcDesName srcFd).effects =
      (sendMsg2AllLoop s pstData s.g_pList).1 := by
  simp only [procSendMsg2All]
  split <;> rfl

theorem effects_procSendFile2One :
    (procSendFile2One s pstData pcDesName srcFd).effects =
      match searchName s.g_pList pcDesName with
      | none => [.reply srcFd (pstData.clearBody.copyText sendFile2OneRetMsg).shortFrame]
      | some pSearchNode => [.relay pSearchNode pstData.toBytes] := by
  rw [procSendFile2One, searchName_eq_find?]
  cases s.g_pList.find? (·.name = pcDesName) <;> rfl

/-- The group loop relays to the nodes whose name the look-up confirms, as long as no
look-up ends the process. -/
theorem relay_mem_sendMsg2AllLoop {head : Linklist} {e : Effect}
    (h : e ∈ (sendMsg2AllLoop s pstData head).1) :
    ∃ pSearchNode ∈ head,
      checkReciverIsFriend s.mysql s.tables pstData pSearchNode.name = some .success ∧
        e = .relay pSearchNode pstData.shortFrame := by
  induction head with
  | nil => exact absurd h List.not_mem_nil
  | cons p next ih =>
      rw [sendMsg2AllLoop] at h
      rcases hcheck : checkReciverIsFriend s.mysql s.tables pstData p.name with _ | _ | _
      · rw [hcheck] at h
        exact absurd h List.not_mem_nil
      · rw [hcheck] at h
        rcases List.mem_cons.mp h with rfl | h
        · exact ⟨p, List.mem_cons_self, hcheck, rfl⟩
        · obtain ⟨q, hq, hfriend, he⟩ := ih h
          exact ⟨q, List.mem_cons_of_mem p hq, hfriend, he⟩
      · rw [hcheck] at h
        obtain ⟨q, hq, hfriend, he⟩ := ih h
        exact ⟨q, List.mem_cons_of_mem p hq, hfriend, he⟩

/-! ## Relays follow the list -/

/-- A relay of a handler that makes a look-up goes to the node that was found. -/
theorem eq_of_relay_mem_checked {found : Option ErrCode} {refusal : MsgData}
    {node : Option Node} {p : Node} {sent bytes : Bytes}
    (h : .relay p bytes ∈
      checked found srcFd refusal (node.toList.map (Effect.relay · sent))) :
    node = some p := by
  rcases mem_checked.mp h with ⟨-, he⟩ | ⟨-, he⟩
  · exact absurd he (by simp)
  · obtain ⟨q, hq, heq⟩ := List.mem_map.mp he
    cases heq
    exact Option.mem_toList.mp hq

/-- The handlers that relay to one user write to the node that the name search
finds. -/
theorem searchName_of_relay {enMsgType : MsgType} (hall : enMsgType ≠ .sendAll)
    {pDestNode : Node} {bytes : Bytes}
    (h : .relay pDestNode bytes ∈
      (astProcClientOptFunc enMsgType s pstData pcDesName srcFd).effects) :
    searchName s.g_pList pcDesName = some pDestNode := by
  cases enMsgType with
  | addFriend =>
      rw [astProcClientOptFunc, effects_procAddFriendMsg] at h
      exact eq_of_relay_mem_checked h
  | delFriend =>
      rw [astProcClientOptFunc, effects_procDelFriendMsg, mem_checked] at h
      simp at h
  | sendOne =>
      rw [astProcClientOptFunc, effects_procSendMsg2One] at h
      exact eq_of_relay_mem_checked h
  | sendAll => exact absurd rfl hall
  | sendFile =>
      rw [astProcClientOptFunc, effects_procSendFile2One] at h
      rcases hfound : searchName s.g_pList pcDesName with _ | p
      · simp [hfound] at h
      · simp only [hfound, List.mem_singleton, Effect.relay.injEq] at h
        rw [h.1]
  | showAll | showFriend | logout => exact absurd h List.not_mem_nil
  | banOne => simp [astProcClientOptFunc, procBanOne] at h

/-- The handler gets as far as its search of the user list for one name. -/
def searchesList (s : ServerState) (enMsgType : MsgType) (pstData : MsgData)
    (pcDesName : CStr) : Prop :=
  match enMsgType with
  | .addFriend => checkUserIsExist s.mysql s.tables pcDesName = some .success
  | .sendOne => checkReciverIsFriend s.mysql s.tables pstData pcDesName = some .success
  | .sendFile => True
  | _ => False

instance (s : ServerState) (pstData : MsgData) (pcDesName : CStr) :
    (enMsgType : MsgType) → Decidable (searchesList s enMsgType pstData pcDesName)
  | .addFriend =>
      inferInstanceAs (Decidable (checkUserIsExist s.mysql s.tables pcDesName = some .success))
  | .sendOne =>
      inferInstanceAs (Decidable
        (checkReciverIsFriend s.mysql s.tables pstData pcDesName = some .success))
  | .sendFile => isTrue trivial
  | .showAll | .showFriend | .delFriend | .sendAll | .banOne | .logout => isFalse id

/-- Only a handler that searches the list relays to one user. -/
theorem searchesList_of_relay {enMsgType : MsgType} (htoOne : enMsgType.ToOne)
    {pDestNode : Node} {bytes : Bytes}
    (h : .relay pDestNode bytes ∈
      (astProcClientOptFunc enMsgType s pstData pcDesName srcFd).effects) :
    searchesList s enMsgType pstData pcDesName := by
  rcases htoOne with rfl | rfl | rfl
  · rw [astProcClientOptFunc, effects_procAddFriendMsg, mem_checked] at h
    obtain ⟨-, he⟩ | ⟨hfound, -⟩ := h
    · cases he
    · exact hfound
  · rw [astProcClientOptFunc, effects_procSendMsg2One, mem_checked] at h
    obtain ⟨-, he⟩ | ⟨hfound, -⟩ := h
    · cases he
    · exact hfound
  · exact trivial

end ChatRoom
