import ChatRoom.Server.Effects

/-!
# Who can reach a user

The loop knows the name under which its session was opened; the handlers decide from the
header of the frame.  Relays of messages and files are compared with the friends table.
-/

namespace ChatRoom

open CString SqlText

/-- The row of the two names is in the friends table. -/
def Tables.IsFriend (t : Tables) (src des : CStr) : Prop := (src.bytes, des.bytes) ∈ t.friends

instance (t : Tables) (src des : CStr) : Decidable (t.IsFriend src des) :=
  inferInstanceAs (Decidable (_ ∈ t.friends))

/-- The friend look-up for the sender named in the header answers whether the row
exists, for the destination and for all registered names. -/
def FriendLookupsExact (s : ServerState) (frame : MsgData) : Prop :=
  ∀ des, des = frame.desNameStr ∨ (∃ p ∈ s.g_pList, p.name = des) →
    checkReciverIsFriend s.mysql s.tables frame des =
      some (if s.tables.IsFriend frame.srcNameStr des then .success else .failed)

/-- With a database as documented the look-ups are exact for names without quotes and
backslashes. -/
theorem friendLookupsExact_of_documented {s : ServerState} {frame : MsgData}
    (hm : s.mysql.Documented)
    (hsrc : Plain frame.srcNameStr.bytes ∧ frame.srcNameStr.strlen ≤ maxNameLen)
    (hdes : Plain frame.desNameStr.bytes ∧ frame.desNameStr.strlen ≤ maxNameLen)
    (hlist : ∀ p ∈ s.g_pList, Plain p.name.bytes ∧ p.name.strlen ≤ maxNameLen) :
    FriendLookupsExact s frame := by
  rintro des (rfl | ⟨p, hp, rfl⟩)
  · exact checkReciverIsFriend_documented hm rfl hsrc.1 hdes.1 hsrc.2 hdes.2
  · obtain ⟨hplain, hlen⟩ := hlist p hp
    exact checkReciverIsFriend_documented hm rfl hsrc.1 hplain hsrc.2 hlen

/-- What the session of `clientName` sends reaches other sockets only if they are
registered for friends of it. -/
def OnlyFriendsReached (s : ServerState) (cFd : ℕ) (clientName : CStr) (frame : MsgData) :
    Prop :=
  ∀ pDestNode bytes, .relay pDestNode bytes ∈ (procClientRequest s cFd frame).effects →
    pDestNode.sfd ≠ cFd → s.tables.IsFriend clientName pDestNode.name

/-- The nodes that the frame is addressed to. -/
def addressed (s : ServerState) (enMsgType : MsgType) (frame : MsgData) : List Node :=
  match enMsgType with
  | .sendAll => s.g_pList
  | _ => (searchName s.g_pList frame.desNameStr).toList

/-- The checks that the handler makes for one addressed node. -/
def handlerAllows (s : ServerState) (enMsgType : MsgType) (frame : MsgData) (p : Node) :
    Prop :=
  match enMsgType with
  | .sendFile => True
  | _ => s.tables.IsFriend frame.srcNameStr p.name

/-- The three types whose relays should be between friends. -/
def MsgType.BetweenFriends (enMsgType : MsgType) : Prop :=
  enMsgType = .sendOne ∨ enMsgType = .sendAll ∨ enMsgType = .sendFile

/-- With exact look-ups the group loop relays to the friends of the named sender. -/
theorem sendMsg2AllLoop_exact {s : ServerState} {frame : MsgData} {head : Linklist}
    (hexact : ∀ p ∈ head, checkReciverIsFriend s.mysql s.tables frame p.name =
      some (if s.tables.IsFriend frame.srcNameStr p.name then .success else .failed)) :
    sendMsg2AllLoop s frame head =
      ((head.filter fun p => s.tables.IsFriend frame.srcNameStr p.name).map
        (.relay · frame.shortFrame), false) := by
  induction head with
  | nil => rfl
  | cons p next ih =>
      have hp := hexact p List.mem_cons_self
      have hnext := ih fun q hq => hexact q (List.mem_cons_of_mem p hq)
      by_cases hfriend : s.tables.IsFriend frame.srcNameStr p.name
      · rw [if_pos hfriend] at hp
        rw [List.filter_cons_of_pos (by simpa using hfriend)]
        simp only [sendMsg2AllLoop, hp, hnext, List.map_cons]
      · rw [if_neg hfriend] at hp
        rw [List.filter_cons_of_neg (by simpa using hfriend)]
        simp only [sendMsg2AllLoop, hp, hnext]

/-- A handler of the three types relays to the addressed nodes that it allows. -/
theorem relay_mem_iff {s : ServerState} {frame : MsgData} {cFd : ℕ}
    (hexact : FriendLookupsExact s frame) {enMsgType : MsgType}
    (htype : enMsgType.BetweenFriends) (p : Node) :
    (∃ bytes, .relay p bytes ∈
        (astProcClientOptFunc enMsgType s frame frame.desNameStr cFd).effects) ↔
      p ∈ addressed s enMsgType frame ∧ handlerAllows s enMsgType frame p := by
  rcases htype with rfl | rfl | rfl
  · have hcheck := hexact frame.desNameStr (.inl rfl)
    simp only [astProcClientOptFunc, effects_procSendMsg2One, addressed, handlerAllows, hcheck]
    rcases hfound : searchName s.g_pList frame.desNameStr with _ | q
    · simp [mem_checked]
    · have hname := name_of_searchName hfound
      by_cases hfriend : s.tables.IsFriend frame.srcNameStr frame.desNameStr
      · rw [if_pos hfriend]
        rw [← hname] at hfriend
        constructor
        · rintro ⟨bytes, h⟩
          obtain rfl : q = p := Option.some.inj (eq_of_relay_mem_checked h)
          exact ⟨List.mem_singleton_self _, hfriend⟩
        · rintro ⟨hp, -⟩
          rw [List.mem_singleton.mp hp]
          exact ⟨frame.shortFrame, mem_checked.mpr (.inr ⟨rfl, List.mem_singleton_self _⟩)⟩
      · rw [if_neg hfriend]
        constructor
        · rintro ⟨bytes, h⟩
          exact absurd h (by simp [mem_checked])
        · rintro ⟨hp, hallowed⟩
          rw [List.mem_singleton.mp hp, hname] at hallowed
          exact absurd hallowed hfriend
  · have hnodes : ∀ q ∈ s.g_pList, checkReciverIsFriend s.mysql s.tables frame q.name =
        some (if s.tables.IsFriend frame.srcNameStr q.name then .success else .failed) :=
      fun q hq => hexact q.name (.inr ⟨q, hq, rfl⟩)
    have hloop := sendMsg2AllLoop_exact hnodes
    simp only [astProcClientOptFunc, effects_procSendMsg2All, addressed, handlerAllows, hloop]
    simp
  · simp only [astProcClientOptFunc, effects_procSendFile2One, addressed, handlerAllows]
    rcases searchName s.g_pList frame.desNameStr with _ | q <;> simp

/-- What an input needs for the friends table to be respected: the body reads "exit", or
all nodes on other sockets that the frame is addressed to and that its handler allows
belong to friends of the session's own user. -/
def RespectsFriends (s : ServerState) (cFd : ℕ) (clientName : CStr) (enMsgType : MsgType)
    (frame : MsgData) : Prop :=
  frame.pDataStr = lit "exit" ∨
    ∀ p ∈ addressed s enMsgType frame, p.sfd ≠ cFd → handlerAllows s enMsgType frame p →
      s.tables.IsFriend clientName p.name

/-- Only friends of the session's user are reached exactly if the handler's check happens
to imply it: `procSendFile2One` checks nothing, and the other two check the sender that
the header names. -/
theorem onlyFriendsReached_iff {s : ServerState} {frame : MsgData} {enMsgType : MsgType}
    (hexact : FriendLookupsExact s frame) (hbetween : enMsgType.BetweenFriends)
    (htype : frame.stMsgHead.enMsgType = enMsgType.code) (cFd : ℕ) (clientName : CStr) :
    OnlyFriendsReached s cFd clientName frame ↔
      RespectsFriends s cFd clientName enMsgType frame := by
  rw [OnlyFriendsReached, RespectsFriends, procClientRequest]
  by_cases hexit : frame.pDataStr = lit "exit"
  · simp [hexit, LoopTurn.effects]
  · simp only [htype, MsgType.ofCode?_code, LoopTurn.effects, hexit, false_or]
    constructor
    · intro h p hp hfd hallowed
      obtain ⟨bytes, hrelay⟩ := (relay_mem_iff hexact hbetween p).mpr ⟨hp, hallowed⟩
      exact h p bytes hrelay hfd
    · intro h p bytes hrelay hfd
      obtain ⟨hp, hallowed⟩ := (relay_mem_iff hexact hbetween p).mp ⟨bytes, hrelay⟩
      exact h p hp hfd hallowed

/-- A message of "a" to its friend "b". -/
theorem onlyFriendsReached_sendOne :
    OnlyFriendsReached
      ⟨Mysql.reference, ⟨[], [(utf8 "a", utf8 "b")], []⟩, [⟨lit "b", 5⟩], ⟨0, 0, 0⟩⟩ 6 (lit "a")
      (MsgData.make .sendOne (lit "a") (lit "b") (lit "hello")) := by
  let s : ServerState :=
    ⟨Mysql.reference, ⟨[], [(utf8 "a", utf8 "b")], []⟩, [⟨lit "b", 5⟩], ⟨0, 0, 0⟩⟩
  let frame := MsgData.make .sendOne (lit "a") (lit "b") (lit "hello")
  have hexact : FriendLookupsExact s frame :=
    friendLookupsExact_of_documented Mysql.reference_documented (by decide +kernel)
      (by decide +kernel) (by decide +kernel)
  have hrespects : RespectsFriends s 6 (lit "a") .sendOne frame := by
    refine .inr fun p hp _ _ => ?_
    have hb : p ∈ [Node.mk (lit "b") 5] := hp
    rw [List.mem_singleton.mp hb]
    decide
  exact (onlyFriendsReached_iff hexact (.inl rfl) rfl 6 (lit "a")).mpr hrespects

/-- "a" sends a file to "b", and they are not friends. -/
theorem not_onlyFriendsReached :
    ¬ ∀ (s : ServerState) (frame : MsgData) (enMsgType : MsgType) (cFd : ℕ)
      (clientName : CStr), FriendLookupsExact s frame → enMsgType.BetweenFriends →
        frame.stMsgHead.enMsgType = enMsgType.code →
          OnlyFriendsReached s cFd clientName frame := by
  intro h
  let s : ServerState := ⟨Mysql.reference, ⟨[], [], []⟩, [⟨lit "b", 5⟩], ⟨0, 0, 0⟩⟩
  let frame := MsgData.make .sendFile (lit "a") (lit "b") (lit "data")
  have hexact : FriendLookupsExact s frame :=
    friendLookupsExact_of_documented Mysql.reference_documented (by decide +kernel)
      (by decide +kernel) (by decide +kernel)
  have hfriend := h s frame .sendFile 6 (lit "a") hexact (.inr (.inr rfl)) rfl ⟨lit "b", 5⟩
    frame.toBytes (by decide +kernel) (by decide)
  exact absurd hfriend (by decide)

end ChatRoom
