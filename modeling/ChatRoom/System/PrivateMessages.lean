import ChatRoom.Client.Receive
import ChatRoom.Server.BufferLoop
import ChatRoom.Support.PostBox
import ChatRoom.System.OfflineMessages

/-!
# Private messages over whole runs

A private message reaches its receiver in one of two ways.  If the receiver has a node in the list,
it is written to the socket of that node; if not, it is stored in the table `message`, and the next
menu of the receiver's client prints and deletes it.  Sessions come and go in between, other frames
are handled, and the other two tables change.

To each user this is a post box: every step of the room is an event of that box, or none.
-/

namespace ChatRoom

open CString SqlText StepSystem PostBox

/-! ## The room -/

/-- A message as its receiver reads it. -/
structure Letter where
  srcName : Bytes
  words : Bytes
deriving DecidableEq

/-- What comes to a user: the bytes of a frame that is written to the socket of a node, or a row of
the result set that is printed. -/
inductive Received where
  | frame (bytes : Bytes)
  | row (pRow : Row)

/-- The private message in it, if it is one and comes in full. -/
def Received.letter : Received → Option Letter
  | frame bytes =>
      let msg := MsgData.ofBytes bytes
      if msg.stMsgHead.enMsgType = MsgType.sendOne.code then
        some ⟨msg.srcNameStr.bytes, msg.pDataStr.bytes⟩
      else none
  | row [srcName, words, time] =>
      if displayLine [srcName, words, time] = srcName ++ 58 :: (words ++ 9 :: time) then
        some ⟨srcName, words⟩
      else none
  | row _ => none

/-- A name without quotes and backslashes that fits its arrays. -/
abbrev PlainName := { n : CStr // n.strlen ≤ maxNameLen ∧ Plain n.bytes }

/-- A frame between two users with such names; the text of a private message is plain, too. -/
structure PlainFrame where
  msg : MsgData
  src : PlainName
  des : PlainName
  srcName_holds : msg.stMsgHead.srcName.Holds src.val
  desName_holds : msg.stMsgHead.desName.Holds des.val
  words_plain : msg.stMsgHead.enMsgType = MsgType.sendOne.code → Plain msg.pDataStr.bytes

/-- The letter of a private message. -/
def PlainFrame.letter (frame : PlainFrame) : Letter :=
  ⟨frame.src.val.bytes, frame.msg.pDataStr.bytes⟩

/-- The tables and the user list, with what the users have received.  `accepted` records the
messages to friends, and `listed` how many rows that wait for a name were printed already. -/
structure Chat where
  tables : Tables
  g_pList : Linklist
  received : List (CStr × Received)
  accepted : List (CStr × Letter)
  listed : CStr → ℕ

/-- The steps.  `list` and `clear` are the two statements of `getUserMsgFromMysql`, and `change` is
any statement on the other two tables. -/
inductive ChatStep where
  | handle (cFd : ℕ) (now : Clock) (frame : PlainFrame)
  | insertNode (name : CStr) (sfd : ℕ)
  | delNode (name : CStr)
  | list (name : PlainName)
  | clear (name : PlainName)
  | change (users : List UserRow) (friends : List (Bytes × Bytes))

/-- The frame is a message to a friend. -/
def Chat.Accepts (s : Chat) (frame : PlainFrame) : Prop :=
  frame.msg.stMsgHead.enMsgType = MsgType.sendOne.code ∧ frame.msg.pDataStr ≠ lit "exit" ∧
    (frame.src.val.bytes, frame.des.val.bytes) ∈ s.tables.friends

instance (s : Chat) (frame : PlainFrame) : Decidable (s.Accepts frame) :=
  inferInstanceAs (Decidable (_ ∧ _ ∧ _))

/-- A write to the socket of a node. -/
def Effect.received : Effect → Option (CStr × Received)
  | relay pDestNode bytes => some (pDestNode.name, .frame bytes)
  | reply _ _ => none

/-- One step; none when the server process ends. -/
def chatStep (m : Mysql) (s : Chat) : ChatStep → Option Chat
  | .handle cFd now frame =>
      match procClientRequest ⟨m, s.tables, s.g_pList, now⟩ cFd frame.msg with
      | .skipped => some s
      | .outOfTable => none
      | .called _ result =>
          if result.exited then none
          else some { s with
            tables := result.tables
            received := s.received ++ result.effects.filterMap Effect.received
            accepted :=
              s.accepted ++ if s.Accepts frame then [(frame.des.val, frame.letter)] else [] }
  | .insertNode name sfd => some { s with g_pList := ChatRoom.insertNode s.g_pList name sfd }
  | .delNode name => some { s with g_pList := ChatRoom.delNode s.g_pList name }
  | .list name =>
      match m.querySelect s.tables (snprintf 128 (sql messageSelect [name.val.bytes])) with
      | some (some rows) => some { s with
          received := s.received ++ rows.map fun pRow => (name.val, .row pRow)
          listed := Function.update s.listed name.val rows.length }
      | _ => some s
  | .clear name => some { s with
      tables := (m.queryModify s.tables
        (snprintf 128 (sql messageDelete [name.val.bytes]))).getD s.tables
      listed := Function.update s.listed name.val 0 }
  | .change users friends => some { s with
      tables := { s.tables with users := users, friends := friends } }

/-- No message has been sent. -/
def Chat.init (users : List UserRow) (friends : List (Bytes × Bytes)) (g_pList : Linklist) :
    Chat :=
  ⟨⟨users, friends, []⟩, g_pList, [], [], fun _ => 0⟩

/-! ## The post boxes -/

def MessageRow.letter (row : MessageRow) : Letter := ⟨row.srcName, row.words⟩

/-- The post box of a user. -/
def Chat.box (s : Chat) (name : CStr) : Box Letter where
  accepted := (s.accepted.filter (·.1 = name)).map (·.2)
  got := (s.received.filter (·.1 = name)).filterMap (·.2.letter)
  waiting := (waitingFor name.bytes s.tables.message).map MessageRow.letter
  listed := s.listed name

/-- The statement that stores a message is not cut. -/
def PlainFrame.Fits (frame : PlainFrame) (now : Clock) : Prop :=
  frame.src.val.strlen + frame.des.val.strlen + frame.msg.pDataStr.strlen +
    (getMsgTime now).length ≤ 60

instance (frame : PlainFrame) (now : Clock) : Decidable (frame.Fits now) :=
  inferInstanceAs (Decidable (_ ≤ _))

/-- What becomes of a message to a friend. -/
def Chat.fate (s : Chat) (now : Clock) (frame : PlainFrame) : Event Letter :=
  if (searchName s.g_pList frame.des.val).isSome then .hand frame.letter
  else if frame.Fits now then .leave frame.letter
  else .lose frame.letter

/-- The box that a step concerns, and what it is to that box. -/
def Chat.event (s : Chat) : ChatStep → Option (CStr × Event Letter)
  | .handle _ now frame =>
      if s.Accepts frame then some (frame.des.val, s.fate now frame) else none
  | .list name => some (name.val, .list)
  | .clear name => some (name.val, .clear)
  | .insertNode _ _ | .delNode _ | .change _ _ => none

/-! ## Frames of private messages -/

theorem MsgType.code_of_ofCode? {code : BitVec 32} {enMsgType : MsgType}
    (h : ofCode? code = some enMsgType) : enMsgType.code = code := by
  have hlt := (isSome_ofCode?_iff code).mp (Option.isSome_iff_exists.mpr ⟨enMsgType, h⟩)
  have hall : ∀ k : Fin 9, (ofCode? (BitVec.ofNat 32 k)).map MsgType.code =
      some (BitVec.ofNat 32 k) := by
    decide
  have hcode := hall ⟨code.toNat, hlt⟩
  rw [BitVec.ofNat_toNat, BitVec.setWidth_eq, h] at hcode
  exact Option.some.inj hcode

theorem MsgType.code_injective {a b : MsgType} (h : a.code = b.code) : a = b := by
  have hsame := congrArg ofCode? h
  rw [ofCode?_code, ofCode?_code] at hsame
  exact Option.some.inj hsame

/-- What a client reads of a relayed frame. -/
theorem ofBytes_shortFrame (msg : MsgData) :
    MsgData.ofBytes msg.shortFrame =
      { msg with pData := CharArray.ofBytes 256 (msg.pData.bytes.take maxWordLen) } :=
  MsgData.ofBytes_take msg maxWordLen

theorem pDataStr_shortFrame (msg : MsgData) :
    (MsgData.ofBytes msg.shortFrame).pDataStr = msg.pDataStr := by
  have hlen : (msg.pData.bytes.take maxWordLen).length = maxWordLen := by
    rw [List.length_take, CharArray.length_bytes]
    rfl
  have hbody : (CharArray.ofBytes 256 (msg.pData.bytes.take maxWordLen)).bytes.take maxWordLen =
      msg.pData.bytes.take maxWordLen := by
    rw [CharArray.bytes_ofBytes (hlen.le.trans (by decide)), List.take_append_of_le_length hlen.ge,
      List.take_of_length_le hlen.le]
  rw [ofBytes_shortFrame, MsgData.pDataStr, MsgData.pDataStr, hbody]

theorem PlainFrame.letter_shortFrame (frame : PlainFrame) :
    (Received.frame frame.msg.shortFrame).letter =
      if frame.msg.stMsgHead.enMsgType = MsgType.sendOne.code then some frame.letter else none := by
  have hhead : (MsgData.ofBytes frame.msg.shortFrame).stMsgHead = frame.msg.stMsgHead := by
    rw [ofBytes_shortFrame]
  have hsrc : (MsgData.ofBytes frame.msg.shortFrame).srcNameStr = frame.src.val := by
    refine MsgData.srcNameStr_of_holds ?_
    rw [hhead]
    exact frame.srcName_holds
  simp only [Received.letter, hhead, hsrc, pDataStr_shortFrame, PlainFrame.letter]

/-- The writes of the other handlers to the sockets of nodes carry the header of the request. -/
theorem bytes_of_relay {enMsgType : MsgType} {s : ServerState} {pstData : MsgData}
    {pcDesName : CStr} {srcFd : ℕ} {p : Node} {bytes : Bytes}
    (h : .relay p bytes ∈ (astProcClientOptFunc enMsgType s pstData pcDesName srcFd).effects) :
    bytes = pstData.shortFrame ∨ bytes = pstData.toBytes := by
  have hfound : ∀ {found : Option ErrCode} {refusal : MsgData} {node : Option Node},
      .relay p bytes ∈ checked found srcFd refusal
        (node.toList.map (Effect.relay · pstData.shortFrame)) → bytes = pstData.shortFrame := by
    intro found refusal node hmem
    rcases mem_checked.mp hmem with ⟨-, he⟩ | ⟨-, he⟩
    · cases he
    · obtain ⟨q, -, heq⟩ := List.mem_map.mp he
      cases heq
      rfl
  cases enMsgType with
  | addFriend =>
      rw [astProcClientOptFunc, effects_procAddFriendMsg] at h
      exact .inl (hfound h)
  | sendOne =>
      rw [astProcClientOptFunc, effects_procSendMsg2One] at h
      exact .inl (hfound h)
  | delFriend =>
      rw [astProcClientOptFunc, effects_procDelFriendMsg, mem_checked] at h
      simp at h
  | sendAll =>
      rw [astProcClientOptFunc, effects_procSendMsg2All] at h
      obtain ⟨q, -, -, he⟩ := relay_mem_sendMsg2AllLoop h
      cases he
      exact .inl rfl
  | sendFile =>
      rw [astProcClientOptFunc, effects_procSendFile2One] at h
      rcases hnode : searchName s.g_pList pcDesName with - | q
      · simp [hnode] at h
      · simp only [hnode, List.mem_singleton, Effect.relay.injEq] at h
        exact .inr h.2
  | showAll | showFriend | logout => exact absurd h List.not_mem_nil
  | banOne => simp [astProcClientOptFunc, procBanOne] at h

/-- A relay of another handler carries no private message. -/
theorem letter_eq_none_of_relay {enMsgType : MsgType} (hne : enMsgType ≠ .sendOne)
    {pstData : MsgData} (htype : enMsgType.code = pstData.stMsgHead.enMsgType) {bytes : Bytes}
    (h : bytes = pstData.shortFrame ∨ bytes = pstData.toBytes) :
    (Received.frame bytes).letter = none := by
  have hcode : pstData.stMsgHead.enMsgType ≠ MsgType.sendOne.code := fun heq =>
    hne (MsgType.code_injective (htype.trans heq))
  rcases h with rfl | rfl
  · rw [Received.letter, ofBytes_shortFrame]
    exact if_neg hcode
  · rw [Received.letter, MsgData.ofBytes_toBytes]
    exact if_neg hcode

/-! ## The handlers -/

section
variable {m : Mysql} (hm : m.Documented) (tables : Tables) (g_pList : Linklist) (now : Clock)
  (frame : PlainFrame) (cFd : ℕ)

theorem PlainFrame.srcNameStr_eq : frame.msg.srcNameStr = frame.src.val :=
  MsgData.srcNameStr_of_holds frame.srcName_holds

theorem PlainFrame.desNameStr_eq : frame.msg.desNameStr = frame.des.val :=
  MsgData.desNameStr_of_holds frame.desName_holds

include hm

/-- A message to a friend is written to the node of the friend's name or stored, one to anybody
else is refused. -/
theorem procSendMsg2One_plain (htype : frame.msg.stMsgHead.enMsgType = MsgType.sendOne.code) :
    procSendMsg2One ⟨m, tables, g_pList, now⟩ frame.msg frame.des.val cFd =
      if (frame.src.val.bytes, frame.des.val.bytes) ∈ tables.friends then
        match searchName g_pList frame.des.val with
        | some pDestNode =>
            returning tables [.relay pDestNode frame.msg.shortFrame] (some .success)
        | none =>
            returning
              (if frame.Fits now then
                { tables with message := tables.message ++
                  [⟨frame.src.val.bytes, frame.des.val.bytes, frame.msg.pDataStr.bytes,
                    getMsgTime now⟩] }
              else tables) [] (some .success)
      else
        returning tables [.reply cFd (frame.msg.copyText sendMsg2OneRetMsg).toBytes]
          (some .failed) := by
  obtain ⟨hsrcLen, hsrcPlain⟩ := frame.src.property
  obtain ⟨hdesLen, hdesPlain⟩ := frame.des.property
  have hcheck := checkReciverIsFriend_documented hm (t := tables) frame.srcNameStr_eq hsrcPlain
    hdesPlain hsrcLen hdesLen
  have hinsert : insertUserMsg2Mysql m tables now frame.msg frame.des.val =
      some (if frame.Fits now then
        { tables with message := tables.message ++
          [⟨frame.src.val.bytes, frame.des.val.bytes, frame.msg.pDataStr.bytes,
            getMsgTime now⟩] }
      else tables) :=
    insertUserMsg2Mysql_documented hm frame.srcNameStr_eq hsrcPlain hdesPlain
      (frame.words_plain htype) now
  rw [procSendMsg2One]
  dsimp only
  rw [hcheck, hinsert]
  by_cases hfriend : (frame.src.val.bytes, frame.des.val.bytes) ∈ tables.friends
  · rw [if_pos hfriend, if_pos hfriend]
    cases searchName g_pList frame.des.val <;> rfl
  · rw [if_neg hfriend, if_neg hfriend]

/-- A message is stored as a new row, if at all. -/
theorem message_procSendMsg2One
    (htype : frame.msg.stMsgHead.enMsgType = MsgType.sendOne.code) :
    let result := procSendMsg2One ⟨m, tables, g_pList, now⟩ frame.msg frame.des.val cFd
    result.tables.message = tables.message ∨ (frame.Fits now ∧
      result.tables.message = tables.message ++
        [⟨frame.src.val.bytes, frame.des.val.bytes, frame.msg.pDataStr.bytes,
          getMsgTime now⟩]) := by
  intro result
  have hresult : result = _ := procSendMsg2One_plain hm tables g_pList now frame cFd htype
  rw [hresult]
  split_ifs with hfriend hfits
  · cases searchName g_pList frame.des.val with
    | none => exact .inr ⟨hfits, rfl⟩
    | some p => exact .inl rfl
  · cases searchName g_pList frame.des.val <;> exact .inl rfl
  · exact .inl rfl

/-- The two statements of `deleteFriendFromMysql` leave the messages. -/
theorem message_deleteFriendFromMysql {t : Tables}
    (h : deleteFriendFromMysql m tables frame.msg frame.des.val = some t) :
    t.message = tables.message := by
  obtain ⟨hsrcLen, hsrcPlain⟩ := frame.src.property
  obtain ⟨hdesLen, hdesPlain⟩ := frame.des.property
  simp only [CStr.strlen, maxNameLen] at hsrcLen hdesLen
  have hfits : ∀ a b : Bytes, a.length ≤ 31 → b.length ≤ 31 →
      (sql friendsDelete [a, b]).length < 128 := by
    intro a b ha hb
    rw [length_friendsDelete]
    omega
  rw [deleteFriendFromMysql, if_pos hm.connected, frame.srcNameStr_eq] at h
  dsimp only at h
  rw [snprintf_eq_self (hfits _ _ hsrcLen hdesLen), snprintf_eq_self (hfits _ _ hdesLen hsrcLen),
    hm.friendsDelete _ _ _ hsrcPlain hdesPlain, hm.friendsDelete _ _ _ hdesPlain hsrcPlain] at h
  rw [← Option.some.inj h]
  rfl

/-- The other handlers leave the messages. -/
theorem message_of_ne_sendOne {enMsgType : MsgType} (hne : enMsgType ≠ .sendOne) :
    (astProcClientOptFunc enMsgType ⟨m, tables, g_pList, now⟩ frame.msg frame.des.val
      cFd).tables.message = tables.message := by
  cases enMsgType with
  | sendOne => exact absurd rfl hne
  | addFriend =>
      rw [astProcClientOptFunc, procAddFriendMsg]
      dsimp only
      rcases checkUserIsExist m tables frame.des.val with - | - | -
      · rfl
      · cases searchName g_pList frame.des.val <;> rfl
      · rfl
  | delFriend =>
      rw [astProcClientOptFunc, procDelFriendMsg]
      dsimp only
      rcases checkReciverIsFriend m tables frame.msg frame.des.val with - | - | -
      · rfl
      · cases hdelete : deleteFriendFromMysql m tables frame.msg frame.des.val with
        | none => rfl
        | some t => exact message_deleteFriendFromMysql hm tables frame hdelete
      · rfl
  | sendAll =>
      rw [astProcClientOptFunc, procSendMsg2All]
      dsimp only
      split_ifs <;> rfl
  | sendFile =>
      rw [astProcClientOptFunc, procSendFile2One]
      dsimp only
      cases g_pList.find? (·.name = frame.des.val) <;> rfl
  | showAll | showFriend | banOne | logout => rfl

end

/-! ## A frame and the post boxes -/

/-- What is added to a box when rows, frames and letters are. -/
theorem Chat.box_append (s : Chat) {t : Tables} {rows : List MessageRow}
    (hrows : t.message = s.tables.message ++ rows) (received : List (CStr × Received))
    (accepted : List (CStr × Letter)) (name : CStr) :
    Chat.box { s with
        tables := t
        received := s.received ++ received
        accepted := s.accepted ++ accepted } name =
      { accepted := (s.box name).accepted ++ (accepted.filter (·.1 = name)).map (·.2)
        got := (s.box name).got ++ (received.filter (·.1 = name)).filterMap (·.2.letter)
        waiting :=
          (s.box name).waiting ++ (waitingFor name.bytes rows).map MessageRow.letter
        listed := s.listed name } := by
  simp [Chat.box, waitingFor, hrows]

theorem waitingFor_singleton (name : CStr) (row : MessageRow) {des : CStr}
    (hdes : row.desName = des.bytes) :
    waitingFor name.bytes [row] = if des = name then [row] else [] := by
  have hsame : row.desName = name.bytes ↔ des = name := by
    rw [hdes]
    exact ⟨CStr.ext_bytes, congrArg CStr.bytes⟩
  by_cases hname : des = name <;> simp [waitingFor, hsame, hname]

section
variable {m : Mysql} {s s' : Chat} {cFd : ℕ} {now : Clock} {frame : PlainFrame}

theorem step_handle_cases (h : chatStep m s (.handle cFd now frame) = some s') :
    (frame.msg.pDataStr = lit "exit" ∧ s' = s) ∨
      ∃ enMsgType, frame.msg.pDataStr ≠ lit "exit" ∧
        enMsgType.code = frame.msg.stMsgHead.enMsgType ∧
        let result := astProcClientOptFunc enMsgType ⟨m, s.tables, s.g_pList, now⟩ frame.msg
          frame.des.val cFd
        s' = { s with
          tables := result.tables
          received := s.received ++ result.effects.filterMap Effect.received
          accepted :=
            s.accepted ++ if s.Accepts frame then [(frame.des.val, frame.letter)] else [] } := by
  by_cases hexit : frame.msg.pDataStr = lit "exit"
  · simp only [chatStep, procClientRequest, if_pos hexit] at h
    exact .inl ⟨hexit, (Option.some.inj h).symm⟩
  · rcases htype : MsgType.ofCode? frame.msg.stMsgHead.enMsgType with - | enMsgType
    · simp [chatStep, procClientRequest, if_neg hexit, htype] at h
    · simp only [chatStep, procClientRequest, if_neg hexit, htype, frame.desNameStr_eq] at h
      obtain ⟨-, h⟩ := Option.ite_none_left_eq_some.mp h
      exact .inr ⟨enMsgType, hexit, MsgType.code_of_ofCode? htype, (Option.some.inj h).symm⟩

/-- A frame that is no private message is nothing to the boxes. -/
theorem box_handle_of_ne_sendOne (hm : m.Documented) {enMsgType : MsgType}
    (hne : enMsgType ≠ .sendOne) (htype : enMsgType.code = frame.msg.stMsgHead.enMsgType)
    (name : CStr) :
    let result := astProcClientOptFunc enMsgType ⟨m, s.tables, s.g_pList, now⟩ frame.msg
      frame.des.val cFd
    Chat.box { s with
      tables := result.tables
      received := s.received ++ result.effects.filterMap Effect.received
      accepted :=
        s.accepted ++ if s.Accepts frame then [(frame.des.val, frame.letter)] else [] } name =
      s.box name := by
  intro result
  have hmessage : result.tables.message = s.tables.message ++ [] := by
    rw [List.append_nil]
    exact message_of_ne_sendOne hm s.tables s.g_pList now frame cFd hne
  have haccepts : ¬ s.Accepts frame := fun h =>
    hne (MsgType.code_injective (htype.trans h.1))
  have hletters : ((result.effects.filterMap Effect.received).filter (·.1 = name)).filterMap
      (·.2.letter) = [] := by
    rw [List.filterMap_eq_nil_iff]
    intro r hr
    obtain ⟨e, he, hreceived⟩ := List.mem_filterMap.mp (List.mem_filter.mp hr).1
    cases e with
    | reply srcFd bytes => cases hreceived
    | relay pDestNode bytes =>
        cases hreceived
        exact letter_eq_none_of_relay hne htype (bytes_of_relay he)
  rw [s.box_append hmessage, hletters, if_neg haccepts]
  simp [waitingFor, Chat.box]

/-- A private message is what its fate says to the box of its receiver. -/
theorem box_handle_sendOne (hm : m.Documented) (hexit : frame.msg.pDataStr ≠ lit "exit")
    (htype : frame.msg.stMsgHead.enMsgType = MsgType.sendOne.code) (name : CStr) :
    let result := procSendMsg2One ⟨m, s.tables, s.g_pList, now⟩ frame.msg frame.des.val cFd
    Chat.box { s with
      tables := result.tables
      received := s.received ++ result.effects.filterMap Effect.received
      accepted :=
        s.accepted ++ if s.Accepts frame then [(frame.des.val, frame.letter)] else [] } name =
      if s.Accepts frame ∧ frame.des.val = name then (s.box name).after (s.fate now frame)
      else s.box name := by
  have hsame : s.tables.message = s.tables.message ++ [] := (List.append_nil _).symm
  have hplain := procSendMsg2One_plain hm s.tables s.g_pList now frame cFd htype
  by_cases hfriend : (frame.src.val.bytes, frame.des.val.bytes) ∈ s.tables.friends
  · have haccepts : s.Accepts frame := ⟨htype, hexit, hfriend⟩
    rw [if_pos hfriend] at hplain
    rcases hnode : searchName s.g_pList frame.des.val with - | p
    · rw [hnode] at hplain
      dsimp only at hplain
      by_cases hfits : frame.Fits now
      · have hfate : s.fate now frame = .leave frame.letter := by
          simp [Chat.fate, hnode, hfits]
        rw [if_pos hfits] at hplain
        rw [hplain, if_pos haccepts, hfate]
        intro result
        rw [s.box_append rfl, waitingFor_singleton name _ rfl]
        by_cases hname : frame.des.val = name
        · simp [hname, haccepts, Box.after, Chat.box, result, returning, MessageRow.letter,
            PlainFrame.letter]
        · simp [hname, Chat.box, result, returning]
      · have hfate : s.fate now frame = .lose frame.letter := by
          simp [Chat.fate, hnode, hfits]
        rw [if_neg hfits] at hplain
        rw [hplain, if_pos haccepts, hfate]
        intro result
        rw [s.box_append (t := result.tables) hsame]
        by_cases hname : frame.des.val = name
        · simp [hname, haccepts, Box.after, Chat.box, result, returning, waitingFor]
        · simp [hname, Chat.box, result, returning, waitingFor]
    · have hfate : s.fate now frame = .hand frame.letter := by
        simp [Chat.fate, hnode]
      have hletter : (Received.frame frame.msg.shortFrame).letter = some frame.letter := by
        rw [frame.letter_shortFrame, if_pos htype]
      have hto : p.name = frame.des.val := name_of_searchName hnode
      rw [hnode] at hplain
      rw [hplain, if_pos haccepts, hfate]
      intro result
      rw [s.box_append (t := result.tables) hsame]
      by_cases hname : frame.des.val = name
      · simp [hname, haccepts, Box.after, Chat.box, result, returning, waitingFor,
          Effect.received, hto, hletter]
      · simp [hname, Chat.box, result, returning, waitingFor, Effect.received, hto]
  · have haccepts : ¬ s.Accepts frame := fun h => hfriend h.2.2
    rw [if_neg hfriend] at hplain
    rw [hplain, if_neg haccepts, if_neg fun h => haccepts h.1]
    intro result
    rw [s.box_append (t := result.tables) hsame]
    simp [Chat.box, result, returning, waitingFor, Effect.received]

end

/-! ## Every step and the post boxes -/

/-- What holds in every state: the rows are short enough to be printed in full, and no more of them
were listed than there are. -/
structure Chat.Inv (s : Chat) : Prop where
  short : ∀ row ∈ s.tables.message,
    row.srcName.length + row.words.length + row.time.length ≤ 61
  listed : ∀ name, (s.box name).listed ≤ (s.box name).waiting.length

theorem letter_row {row : MessageRow}
    (h : row.srcName.length + row.words.length + row.time.length ≤ 61) :
    (Received.row [row.srcName, row.words, row.time]).letter = some row.letter :=
  if_pos ((displayLine_eq_fullLine_iff row).mpr h)

section
variable {m : Mysql} (hm : m.Documented)
include hm

/-- A listing prints the rows that wait. -/
theorem chatStep_list (s : Chat) (name : PlainName) :
    chatStep m s (.list name) = some { s with
      received := s.received ++ (waitingFor name.val.bytes s.tables.message).map fun row =>
        (name.val, .row [row.srcName, row.words, row.time])
      listed := Function.update s.listed name.val
        (waitingFor name.val.bytes s.tables.message).length } := by
  obtain ⟨hlen, hplain⟩ := name.property
  simp only [CStr.strlen, maxNameLen] at hlen
  have hfits : (sql messageSelect [name.val.bytes]).length < 128 := by
    rw [length_messageSelect]
    omega
  simp only [chatStep, snprintf_eq_self hfits, hm.messageSelect s.tables _ hplain, messageRows,
    waitingFor, List.map_map, List.length_map]
  rfl

/-- The delete takes all of them. -/
theorem chatStep_clear (s : Chat) (name : PlainName) :
    chatStep m s (.clear name) = some { s with
      tables := { s.tables with
        message := s.tables.message.filter (·.desName ≠ name.val.bytes) }
      listed := Function.update s.listed name.val 0 } := by
  obtain ⟨hlen, hplain⟩ := name.property
  simp only [CStr.strlen, maxNameLen] at hlen
  have hfits : (sql messageDelete [name.val.bytes]).length < 128 := by
    rw [length_messageDelete]
    omega
  simp only [chatStep, snprintf_eq_self hfits, hm.messageDelete s.tables _ hplain,
    Option.getD_some]

variable {s s' : Chat}

theorem box_list (hs : s.Inv) {n : PlainName} (h : chatStep m s (.list n) = some s')
    (name : CStr) :
    s'.box name = if n.val = name then (s.box name).after .list else s.box name := by
  rw [chatStep_list hm] at h
  obtain rfl := Option.some.inj h
  have hletters : ∀ rows : List MessageRow, (∀ row ∈ rows, row ∈ s.tables.message) →
      rows.filterMap (fun row =>
        (Received.row [row.srcName, row.words, row.time]).letter) = rows.map MessageRow.letter := by
    intro rows hrows
    rw [← List.filterMap_eq_map]
    exact List.filterMap_congr fun row hrow => letter_row (hs.short row (hrows row hrow))
  by_cases hname : n.val = name
  · have hall := hletters (waitingFor name.bytes s.tables.message) fun row hrow =>
      (List.mem_filter.mp hrow).1
    subst hname
    simp [Chat.box, Box.after, List.filter_map, Function.comp_def, List.filterMap_map, hall]
  · simp [Chat.box, hname, List.filter_map, Function.comp_def,
      Function.update_of_ne (Ne.symm hname)]

theorem box_clear {n : PlainName} (h : chatStep m s (.clear n) = some s') (name : CStr) :
    s'.box name = if n.val = name then (s.box name).after .clear else s.box name := by
  rw [chatStep_clear hm] at h
  obtain rfl := Option.some.inj h
  by_cases hname : n.val = name
  · subst hname
    simp [Chat.box, Box.after, waitingFor, List.filter_filter]
  · have hother : n.val.bytes ≠ name.bytes := fun heq => hname (CStr.ext_bytes heq)
    have hkept : waitingFor name.bytes
        (s.tables.message.filter (·.desName ≠ n.val.bytes)) =
          waitingFor name.bytes s.tables.message := by
      rw [waitingFor, waitingFor, List.filter_filter]
      refine List.filter_congr fun row _ => ?_
      by_cases hrow : row.desName = name.bytes
      · simp [hrow, Ne.symm hother]
      · simp [hrow]
    rw [if_neg hname]
    simp only [Chat.box, hkept, Function.update_of_ne (Ne.symm hname)]

/-- Every step is to the boxes what its event says. -/
theorem box_step (hs : s.Inv) {a : ChatStep} (h : chatStep m s a = some s') (name : CStr) :
    s'.box name =
      match s.event a with
      | some (owner, e) => if owner = name then (s.box name).after e else s.box name
      | none => s.box name := by
  cases a with
  | handle cFd now frame =>
      rcases step_handle_cases h with ⟨hexit, rfl⟩ | ⟨enMsgType, hexit, htype, rfl⟩
      · have hevent : s'.event (.handle cFd now frame) = none :=
          if_neg fun haccepts => haccepts.2.1 hexit
        rw [hevent]
      · by_cases hone : enMsgType = .sendOne
        · subst hone
          refine (box_handle_sendOne hm hexit htype.symm name).trans ?_
          by_cases haccepts : s.Accepts frame <;> simp [Chat.event, haccepts]
        · have hevent : s.event (.handle cFd now frame) = none :=
            if_neg fun haccepts => hone (MsgType.code_injective (htype.trans haccepts.1))
          rw [hevent]
          exact box_handle_of_ne_sendOne hm hone htype name
  | list n => exact box_list hm hs h name
  | clear n => exact box_clear hm h name
  | insertNode | delNode | change =>
      obtain rfl := Option.some.inj h
      rfl

/-- A new row is short, for the statement that stores it fits its buffer. -/
theorem short_handle (hs : s.Inv) {cFd : ℕ} {now : Clock} {frame : PlainFrame}
    (h : chatStep m s (.handle cFd now frame) = some s') :
    ∀ row ∈ s'.tables.message, row.srcName.length + row.words.length + row.time.length ≤ 61 := by
  rcases step_handle_cases h with ⟨-, rfl⟩ | ⟨enMsgType, -, htype, rfl⟩
  · exact hs.short
  · dsimp only
    by_cases hone : enMsgType = .sendOne
    · subst hone
      rw [astProcClientOptFunc]
      rcases message_procSendMsg2One hm s.tables s.g_pList now frame cFd htype.symm with
        hsame | ⟨hfits, hnew⟩
      · rw [hsame]
        exact hs.short
      · rw [hnew, List.forall_mem_append, List.forall_mem_singleton]
        refine ⟨hs.short, ?_⟩
        simp only [PlainFrame.Fits, CStr.strlen] at hfits
        dsimp only
        omega
    · rw [message_of_ne_sendOne hm s.tables s.g_pList now frame cFd hone]
      exact hs.short

theorem inv_step (hs : s.Inv) {a : ChatStep} (h : chatStep m s a = some s') : s'.Inv := by
  refine ⟨?_, fun name => ?_⟩
  · cases a with
    | handle cFd now frame => exact short_handle hm hs h
    | list n =>
        rw [chatStep_list hm] at h
        obtain rfl := Option.some.inj h
        exact hs.short
    | clear n =>
        rw [chatStep_clear hm] at h
        obtain rfl := Option.some.inj h
        exact fun row hrow => hs.short row (List.mem_filter.mp hrow).1
    | insertNode | delNode | change =>
        obtain rfl := Option.some.inj h
        exact hs.short
  · rw [box_step hm hs h name]
    split
    · split_ifs
      · exact Box.listed_after_le (hs.listed name) _
      · exact hs.listed name
    · exact hs.listed name

/-- A property of boxes, whose fate at an event is known, holds of all boxes after a step exactly
if the condition for it held of the one box that the step concerns. -/
theorem forall_box_iff {Q : Box Letter → Prop} {G : Box Letter → Event Letter → Prop}
    (hQ : ∀ b e, Q b → b.listed ≤ b.waiting.length → (Q (b.after e) ↔ G b e)) (hs : s.Inv)
    (hall : ∀ name, Q (s.box name)) {a : ChatStep} (h : chatStep m s a = some s') :
    (∀ name, Q (s'.box name)) ↔
      ∀ owner e, s.event a = some (owner, e) → G (s.box owner) e := by
  have hbox := box_step hm hs h
  cases hevent : s.event a with
  | none =>
      simp only [hevent] at hbox
      simpa [hbox] using hall
  | some p =>
      obtain ⟨owner, e⟩ := p
      simp only [hevent] at hbox
      have hiff := hQ (s.box owner) e (hall owner) (hs.listed owner)
      constructor
      · intro hafter owner' e' heq
        obtain ⟨rfl, rfl⟩ := Prod.mk.inj (Option.some.inj heq)
        have howner := hafter owner
        rw [hbox, if_pos rfl] at howner
        exact hiff.mp howner
      · intro hguard name
        rw [hbox]
        by_cases hname : owner = name
        · subst hname
          rw [if_pos rfl]
          exact hiff.mpr (hguard owner e rfl)
        · rw [if_neg hname]
          exact hall name

/-- A call of `getUserMsgFromMysql` that nothing interrupts is a listing and a delete. -/
theorem getUserMsgFromMysql_steps (s : Chat) (name : PlainName) :
    ∃ result s', getUserMsgFromMysql m s.tables name.val = some result ∧
      run (chatStep m) s [.list name, .clear name] = some s' ∧ s'.tables = result.tables ∧
      ∃ rows : List Row, s'.received = s.received ++ rows.map (fun pRow => (name.val, .row pRow)) ∧
        result.printed = mailboxHeading :: rows.map displayLine := by
  obtain ⟨hlen, hplain⟩ := name.property
  let rows := waitingFor name.val.bytes s.tables.message
  have hrun : run (chatStep m) s [.list name, .clear name] = some { s with
      tables := { s.tables with
        message := s.tables.message.filter (·.desName ≠ name.val.bytes) }
      received := s.received ++ rows.map fun row =>
        (name.val, .row [row.srcName, row.words, row.time])
      listed := Function.update s.listed name.val 0 } := by
    rw [run_cons, chatStep_list hm, Option.bind_some, run_cons, chatStep_clear hm]
    simp [rows]
  refine ⟨_, _, getUserMsgFromMysql_documented hm s.tables hplain hlen, hrun, rfl,
    messageRows s.tables name.val.bytes, ?_, rfl⟩
  simp [messageRows, waitingFor, rows]

end

/-! ## Nothing is lost or read twice -/

/-- The rows that wait for a user and were not printed yet. -/
def Chat.unlisted (s : Chat) (name : CStr) : List MessageRow :=
  (waitingFor name.bytes s.tables.message).drop (s.listed name)

/-- Each private message to a friend was written to a socket of its receiver or printed from the
mailbox, in full and once, or it is a row that waits. -/
def Chat.Accounted (s : Chat) : Prop := ∀ name, (s.box name).Accounted

/-- The same, in the order in which the messages to each user were sent. -/
def Chat.InOrder (s : Chat) : Prop := ∀ name, (s.box name).InOrder

/-- The condition on a step: a message that must be stored fits its statement, nothing is listed
twice, and the delete comes upon rows that were listed. -/
def Chat.Careful (s : Chat) : ChatStep → Prop
  | .handle _ now frame =>
      s.Accepts frame → searchName s.g_pList frame.des.val = none → frame.Fits now
  | .list name => s.listed name.val = 0
  | .clear name => s.unlisted name.val = []
  | .insertNode _ _ | .delNode _ | .change _ _ => True

/-- In addition, a message that is written to a socket finds no other messages waiting. -/
def Chat.Patient (s : Chat) : ChatStep → Prop
  | .handle _ now frame =>
      s.Accepts frame →
        (searchName s.g_pList frame.des.val = none → frame.Fits now) ∧
          (searchName s.g_pList frame.des.val ≠ none →
            ∀ row ∈ s.unlisted frame.des.val, row.letter = frame.letter)
  | a => s.Careful a

theorem unseen_box (s : Chat) (name : CStr) :
    (s.box name).unseen = (s.unlisted name).map MessageRow.letter :=
  List.map_drop.symm

theorem careful_iff (s : Chat) (a : ChatStep) :
    s.Careful a ↔ ∀ owner e, s.event a = some (owner, e) → (s.box owner).Careful e := by
  cases a with
  | handle cFd now frame =>
      simp only [Chat.Careful, Chat.event, Option.ite_none_right_eq_some, Option.some.injEq,
        Prod.mk.injEq]
      constructor
      · rintro h _ _ ⟨haccepts, rfl, rfl⟩
        rw [Chat.fate]
        split_ifs with honline hfits
        · trivial
        · trivial
        · exact hfits (h haccepts (by simpa using honline))
      · intro h haccepts hoffline
        by_contra hfits
        have hlost := h _ _ ⟨haccepts, rfl, rfl⟩
        simp [Chat.fate, hoffline, hfits, Box.Careful] at hlost
  | list name => simp [Chat.Careful, Chat.event, Box.Careful, Chat.box]
  | clear name => simp [Chat.Careful, Chat.event, Box.Careful, unseen_box]
  | insertNode | delNode | change => simp [Chat.Careful, Chat.event]

theorem patient_iff (s : Chat) (a : ChatStep) :
    s.Patient a ↔ ∀ owner e, s.event a = some (owner, e) → (s.box owner).Patient e := by
  cases a with
  | handle cFd now frame =>
      have hunseen : (∀ row ∈ s.unlisted frame.des.val, row.letter = frame.letter) ↔
          ∀ l ∈ (s.box frame.des.val).unseen, l = frame.letter := by
        rw [unseen_box, List.forall_mem_map]
      simp only [Chat.Patient, Chat.event, Option.ite_none_right_eq_some, Option.some.injEq,
        Prod.mk.injEq, hunseen]
      constructor
      · rintro h _ _ ⟨haccepts, rfl, rfl⟩
        obtain ⟨hfit, hnone⟩ := h haccepts
        rw [Chat.fate]
        split_ifs with honline hfits
        · exact hnone (by simpa [Option.isSome_iff_ne_none] using honline)
        · trivial
        · exact hfits (hfit (by simpa using honline))
      · intro h haccepts
        have hfate := h _ _ ⟨haccepts, rfl, rfl⟩
        constructor
        · intro hoffline
          by_contra hfits
          simp [Chat.fate, hoffline, hfits, Box.Patient, Box.Careful] at hfate
        · intro honline
          rwa [Chat.fate, if_pos (Option.isSome_iff_ne_none.mpr honline)] at hfate
  | list name => simp [Chat.Patient, Chat.Careful, Chat.event, Box.Patient, Box.Careful, Chat.box]
  | clear name =>
      simp [Chat.Patient, Chat.Careful, Chat.event, Box.Patient, Box.Careful, unseen_box]
  | insertNode | delNode | change => simp [Chat.Patient, Chat.Careful, Chat.event]

theorem inv_init (users : List UserRow) (friends : List (Bytes × Bytes)) (g_pList : Linklist) :
    (Chat.init users friends g_pList).Inv :=
  ⟨fun _ h => absurd h List.not_mem_nil, fun _ => Nat.le_refl 0⟩

section
variable {m : Mysql} (hm : m.Documented) (users : List UserRow) (friends : List (Bytes × Bytes))
  (g_pList : Linklist) (steps : List ChatStep)
include hm

/-- In every run, no private message to a friend is lost or read twice exactly if every message
that must be stored fits its statement, nothing is listed twice, and nothing comes in between a
listing and its delete. -/
theorem everyState_accounted_iff :
    EveryState (chatStep m) Chat.Accounted (Chat.init users friends g_pList) steps ↔
      EveryStep (chatStep m) Chat.Careful (Chat.init users friends g_pList) steps := by
  have hafter : ∀ s a s', s.Inv ∧ s.Accounted → chatStep m s a = some s' →
      (s'.Accounted ↔ s.Careful a) := by
    rintro s a s' ⟨hs, hall⟩ h
    rw [careful_iff]
    exact forall_box_iff hm (fun _ e hb hlisted => Box.accounted_after_iff hb hlisted e) hs hall h
  have hinit : (Chat.init users friends g_pList).Accounted := fun _ => List.Perm.refl []
  have hstep : ∀ s a s', s.Inv ∧ s.Accounted → s.Careful a → chatStep m s a = some s' →
      s'.Inv ∧ s'.Accounted := by
    intro s a s' hs hcareful h
    exact ⟨inv_step hm hs.1 h, (hafter s a s' hs h).mpr hcareful⟩
  exact everyState_iff_everyStep hstep hafter ⟨inv_init users friends g_pList, hinit⟩ hinit

/-- Each user reads the messages in the order in which they were sent exactly if, in addition, no
message is written to a socket of a user for whom others wait. -/
theorem everyState_inOrder_iff :
    EveryState (chatStep m) Chat.InOrder (Chat.init users friends g_pList) steps ↔
      EveryStep (chatStep m) Chat.Patient (Chat.init users friends g_pList) steps := by
  have hafter : ∀ s a s', s.Inv ∧ s.InOrder → chatStep m s a = some s' →
      (s'.InOrder ↔ s.Patient a) := by
    rintro s a s' ⟨hs, hall⟩ h
    rw [patient_iff]
    exact forall_box_iff hm (fun _ e hb hlisted => Box.inOrder_after_iff hb hlisted e) hs hall h
  have hinit : (Chat.init users friends g_pList).InOrder := fun _ => rfl
  have hstep : ∀ s a s', s.Inv ∧ s.InOrder → s.Patient a → chatStep m s a = some s' →
      s'.Inv ∧ s'.InOrder := by
    intro s a s' hs hpatient h
    exact ⟨inv_step hm hs.1 h, (hafter s a s' hs h).mpr hpatient⟩
  exact everyState_iff_everyStep hstep hafter ⟨inv_init users friends g_pList, hinit⟩ hinit

end

/-- A message of Alice to Bob. -/
def helloBob : PlainFrame where
  msg := MsgData.make .sendOne (lit "alice") (lit "bob") (lit "hello")
  src := ⟨lit "alice", by decide⟩
  des := ⟨lit "bob", by decide⟩
  srcName_holds := by decide
  desName_holds := by decide
  words_plain := fun _ => by decide +kernel

/-- Bob is told hello before he comes in, reads it and is told again. -/
def helloSteps : List ChatStep :=
  [.handle 5 ⟨12, 30, 0⟩ helloBob, .insertNode (lit "bob") 6, .list helloBob.des,
    .clear helloBob.des, .handle 5 ⟨12, 31, 0⟩ helloBob]

theorem everyState_accounted_hello :
    let room := Chat.init [] [(utf8 "alice", utf8 "bob")] []
    EveryState (chatStep Mysql.reference) Chat.Accounted room helloSteps ↔
      EveryStep (chatStep Mysql.reference) Chat.Careful room helloSteps :=
  everyState_accounted_iff Mysql.reference_documented [] [(utf8 "alice", utf8 "bob")] [] helloSteps

theorem everyState_inOrder_hello :
    let room := Chat.init [] [(utf8 "alice", utf8 "bob")] []
    EveryState (chatStep Mysql.reference) Chat.InOrder room helloSteps ↔
      EveryStep (chatStep Mysql.reference) Chat.Patient room helloSteps :=
  everyState_inOrder_iff Mysql.reference_documented [] [(utf8 "alice", utf8 "bob")] [] helloSteps

end ChatRoom
