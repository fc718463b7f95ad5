import ChatRoom.Client.AddFriend
import ChatRoom.Client.Receive
import ChatRoom.Client.Send
import ChatRoom.Core.Numbers
import ChatRoom.Support.StepSystem
import Mathlib.Data.List.Nodup

/-!
# The exchange about a friend request

Request and reply have the same message type and go through the same handler of the server.
A client tells them apart by the sender's name: a frame that names its own user is a reply.
Here any number of requests are under way between clients that stay online, and the frames
are delivered in any order.  The answer to a prompt is whatever `scanf` makes of the text typed,
and the server ends when a query for a name that was asked for fails.
-/

namespace ChatRoom

open CString StepSystem

/-- A frame that was written and not yet read. -/
inductive Packet where
  | toServer (sender : Node) (bytes : Bytes)
  | toClient (receiver : Node) (bytes : Bytes)
deriving DecidableEq

/-- A request that was written, and all that has followed from it: frames in flight, nodes
relayed to, prompts with the texts typed at them, calls of `insertFriend2Mysql`, clients that
printed a frame, and the number of frames delivered. -/
structure RequestTrace where
  sender : Node
  desName : CStr
  inFlight : List Packet
  relays : List Node
  prompts : List (Node × Bytes)
  inserts : List (CStr × CStr)
  printed : List Node
  delivered : ℕ

def RequestTrace.start (sender : Node) (desName : CStr) (bytes : Bytes) : RequestTrace :=
  ⟨sender, desName, [.toServer sender bytes], [], [], [], [], 0⟩

/-- Where a write of the sender's handler thread goes. -/
def Effect.packet (sender : Node) : Effect → Packet
  | relay pDestNode bytes => .toClient pDestNode bytes
  | reply _ bytes => .toClient sender bytes

def Effect.relayed : Effect → List Node
  | relay pDestNode _ => [pDestNode]
  | reply _ _ => []

/-- The server's thread for `sender` reads a frame; `none` when the process ends. -/
def RequestTrace.serve (tr : RequestTrace) (s : ServerState) (sender : Node) (bytes : Bytes) :
    Option RequestTrace :=
  match procClientRequest s sender.sfd (MsgData.ofBytes bytes) with
  | .skipped => some tr
  | .called _ result =>
      if result.exited then none
      else some { tr with
        inFlight := tr.inFlight ++ result.effects.map (·.packet sender)
        relays := tr.relays ++ result.effects.flatMap Effect.relayed }
  | .outOfTable => none

/-- The receiving thread of a client reads a frame; if the user is prompted, `typed` is the
input, and `choice` is what the uninitialised variable held. -/
def RequestTrace.receive (tr : RequestTrace) (m : Mysql) (tables : Tables) (receiver : Node)
    (bytes typed : Bytes) (choice : ℤ) : RequestTrace :=
  let pcMsgBuf := MsgData.ofBytes (bytes.take recvSize)
  match recvBranch pcMsgBuf.stMsgHead.enMsgType with
  | .doRecvFile => tr
  | .printed => { tr with printed := tr.printed ++ [receiver] }
  | .doProcAddFriendRequest =>
      match doProcAddFriendRequest m tables pcMsgBuf receiver.name (scanf typed choice) with
      | .printed _ => { tr with printed := tr.printed ++ [receiver] }
      | .answered answer => { tr with
          prompts := tr.prompts ++ [(receiver, typed)]
          inserts := tr.inserts ++ answer.inserted.toList
          inFlight := tr.inFlight ++
            answer.reply.toList.map fun reply => .toServer receiver reply.toBytes }

/-- A user types a request, or a frame of request `k` is delivered; the tables, the time and
the input are those of that moment. -/
inductive ExchangeStep where
  | typed (sender : Node) (pClientData : MsgData) (desName : Name)
  | deliver (k : ℕ) (packet : Packet) (tables : Tables) (now : Clock) (typed : Bytes)
      (choice : ℤ)

/-- The requests typed so far, and whether the server is running. -/
structure Exchange where
  requests : List RequestTrace
  up : Bool

def Exchange.start : Exchange := ⟨[], true⟩

/-- The frame is read. -/
def RequestTrace.taken (tr : RequestTrace) (packet : Packet) : RequestTrace :=
  { tr with
    inFlight := tr.inFlight.erase packet
    delivered := tr.delivered + 1 }

/-- A frame of request `k`, whose trace is `tr`, is read. -/
def Exchange.deliver (s : Exchange) (m : Mysql) (g_pList : Linklist) (k : ℕ)
    (tr : RequestTrace) (packet : Packet) (tables : Tables) (now : Clock) (typed : Bytes)
    (choice : ℤ) : Option Exchange :=
  match packet with
  | .toServer sender bytes =>
      if s.up then
        match (tr.taken packet).serve ⟨m, tables, g_pList, now⟩ sender bytes with
        | some tr' => some { s with requests := s.requests.set k tr' }
        | none => some ⟨s.requests.set k (tr.taken packet), false⟩
      else none
  | .toClient receiver bytes =>
      some { s with
        requests :=
          s.requests.set k ((tr.taken packet).receive m tables receiver bytes typed choice) }

/-- One step of the clients in `g_pList` and the server.  The message buffer of a client has
the name of its user; nothing is written when the name typed is "exit". -/
def exchangeStep (m : Mysql) (g_pList : Linklist) (s : Exchange) :
    ExchangeStep → Option Exchange
  | .typed sender pClientData desName =>
      if s.up = true ∧ sender ∈ g_pList ∧ pClientData.stMsgHead.srcName.Holds sender.name then
        some { s with
          requests := s.requests ++
            (dispatchClientRequest pClientData [.addFriend desName]).map fun w =>
              .start sender desName w.bytes }
      else none
  | .deliver k packet tables now typed choice =>
      match s.requests[k]? with
      | none => none
      | some tr =>
          if packet ∈ tr.inFlight then s.deliver m g_pList k tr packet tables now typed choice
          else none

/-- What should hold of a request to `b`: one prompt at `b`, exactly one once nothing is in
flight, then also a relay to `b` and one back, whose receiver has only printed it; and the
friendship is stored for the answer 0. -/
structure RequestTrace.Proper (tr : RequestTrace) (b : Node) : Prop where
  inFlight : tr.inFlight.length ≤ 1
  promptsAt : ∀ prompt ∈ tr.prompts, prompt.1 = b
  atMostOnce : tr.prompts.length ≤ 1
  exactlyOnce : tr.inFlight = [] → tr.prompts.length = 1
  relays : tr.relays <+: [b, tr.sender]
  relayedBack : tr.inFlight = [] → tr.relays = [b, tr.sender]
  printed : tr.printed = if tr.inFlight = [] then [tr.sender] else []
  inserts : tr.inserts =
    (tr.prompts.filter (scanNumber ·.2 = some 0)).map fun _ => (tr.sender.name, b.name)

/-- The server goes on running, no request is delivered more than four times, and every request
to another user who is online is as it should be. -/
def Exchange.Proper (g_pList : Linklist) (s : Exchange) : Prop :=
  s.up = true ∧ ∀ tr ∈ s.requests, tr.delivered ≤ 4 ∧
    ∀ b ∈ g_pList, b.name = tr.desName → b ≠ tr.sender → tr.Proper b

/-! ## The frames -/

/-- A frame of the exchange about a request of `src`. -/
def MsgHead.FriendOf (head : MsgHead) (src : CStr) : Prop :=
  head.enMsgType = MsgType.addFriend.code ∧ head.srcName.Holds src

/-- Such a frame on its way to the server, addressed to `des`. -/
structure MsgData.FriendTo (msg : MsgData) (src des : CStr) : Prop where
  head : msg.stMsgHead.FriendOf src
  desName : msg.stMsgHead.desName.Holds des
  body : msg.pDataStr ≠ lit "exit"

/-- A client reads the header of a relay, and that of a refusal in full size. -/
theorem stMsgHead_received (msg : MsgData) :
    (MsgData.ofBytes (msg.shortFrame.take recvSize)).stMsgHead = msg.stMsgHead ∧
      (MsgData.ofBytes (msg.toBytes.take recvSize)).stMsgHead = msg.stMsgHead := by
  have htake : msg.shortFrame.take recvSize = msg.toBytes.take (sizeofMsgHead + maxWordLen) :=
    List.take_of_length_le (length_shortFrame msg).le
  have hsize : recvSize = sizeofMsgHead + maxWordLen := rfl
  rw [htake, hsize, MsgData.ofBytes_take]
  exact ⟨rfl, rfl⟩

/-- The frames of a typed request: one, unless the name is "exit". -/
theorem friendTo_of_mem_writes {pClientData : MsgData} {src : CStr} {desName : Name}
    (hsrc : pClientData.stMsgHead.srcName.Holds src) {w : ClientWrite}
    (hw : w ∈ dispatchClientRequest pClientData [.addFriend desName]) :
    ∃ msg : MsgData, w.bytes = msg.toBytes ∧ msg.FriendTo src desName := by
  simp only [dispatchClientRequest, dispatchMsg, sendAddFriendMsg, sendNamed,
    List.append_nil] at hw
  split_ifs at hw
  · exact absurd hw List.not_mem_nil
  · rw [List.mem_singleton.mp hw]
    refine ⟨_, List.take_of_length_le (MsgData.length_toBytes _).le, ⟨rfl, hsrc⟩, ?_, ?_⟩
    · exact CharArray.holds_strcpy _ (Nat.lt_succ_of_le desName.property)
    · have hempty : cstr ((CharArray.zero 256).bytes.take maxWordLen) ≠ lit "exit" := by
        decide +kernel
      exact hempty

/-- The reply to a request goes back to its sender. -/
theorem friendTo_turnedBack {msg : MsgData} {src : CStr} (hmsg : msg.stMsgHead.FriendOf src)
    (text : CStr)
    (htext : cstr (((CharArray.zero 256).strcpy text).bytes.take maxWordLen) ≠ lit "exit") :
    (msg.turnedBack.setText text).FriendTo src src := by
  have hname := MsgData.srcNameStr_of_holds hmsg.2
  refine ⟨⟨hmsg.1, hmsg.2⟩, ?_, htext⟩
  have hholds := CharArray.holds_strcpy (CharArray.zero 32) hmsg.2.strlen_lt
  rw [← hname] at hholds ⊢
  exact hholds

/-! ## The stages of a request -/

/-- What has happened once the reply of another user who is online is on its way back. -/
def RequestTrace.Answered (tr : RequestTrace) (g_pList : Linklist) : Prop :=
  ∀ p ∈ g_pList, p.name = tr.desName → tr.desName ≠ tr.sender.name →
    ∃ typed, tr.prompts = [(p, typed)] ∧
      tr.inserts =
        (if scanNumber typed = some 0 then [(tr.sender.name, tr.desName)] else []) ∧
      tr.relays = [p, tr.sender]

/-- The stages, with the number of deliveries that may still follow. -/
inductive RequestTrace.Stage (g_pList : Linklist) (tr : RequestTrace) : ℕ → Prop where
  | requested (msg : MsgData) (hflight : tr.inFlight = [.toServer tr.sender msg.toBytes])
      (hmsg : msg.FriendTo tr.sender.name tr.desName)
      (hrelays : tr.relays = []) (hprompts : tr.prompts = []) (hinserts : tr.inserts = [])
      (hprinted : tr.printed = []) : Stage g_pList tr 4
  | asked (p : Node) (bytes : Bytes) (hp : p ∈ g_pList) (hname : p.name = tr.desName)
      (hother : tr.desName ≠ tr.sender.name) (hflight : tr.inFlight = [.toClient p bytes])
      (hhead : (MsgData.ofBytes (bytes.take recvSize)).stMsgHead.FriendOf tr.sender.name)
      (hrelays : tr.relays = [p]) (hprompts : tr.prompts = []) (hinserts : tr.inserts = [])
      (hprinted : tr.printed = []) : Stage g_pList tr 3
  | replied (p : Node) (msg : MsgData) (typed : Bytes) (hp : p ∈ g_pList)
      (hname : p.name = tr.desName) (hother : tr.desName ≠ tr.sender.name)
      (hflight : tr.inFlight = [.toServer p msg.toBytes])
      (hmsg : msg.FriendTo tr.sender.name tr.sender.name) (hrelays : tr.relays = [p])
      (hprompts : tr.prompts = [(p, typed)])
      (hinserts : tr.inserts =
        if scanNumber typed = some 0 then [(tr.sender.name, tr.desName)] else [])
      (hprinted : tr.printed = []) : Stage g_pList tr 2
  | returning (bytes : Bytes) (hflight : tr.inFlight = [.toClient tr.sender bytes])
      (hhead : (MsgData.ofBytes (bytes.take recvSize)).stMsgHead.FriendOf tr.sender.name)
      (hanswered : tr.Answered g_pList) (hprinted : tr.printed = []) : Stage g_pList tr 1
  | printed (hflight : tr.inFlight = []) (hanswered : tr.Answered g_pList)
      (hprinted : tr.printed = [tr.sender]) : Stage g_pList tr 0
  | dropped (hflight : tr.inFlight = []) (habsent : ∀ p ∈ g_pList, p.name ≠ tr.desName) :
      Stage g_pList tr 0

/-- Every node of the list is a registered user. -/
def UsersFound (m : Mysql) (g_pList : Linklist) (tables : Tables) : Prop :=
  ∀ p ∈ g_pList, checkUserIsExist m tables p.name = some .success

theorem UsersFound.connect {m : Mysql} {g_pList : Linklist} {tables : Tables}
    (h : UsersFound m g_pList tables) {p : Node} (hp : p ∈ g_pList) : m.connect = true := by
  by_contra hfails
  have hfound := h p hp
  rw [checkUserIsExist, if_neg hfails] at hfound
  cases hfound

theorem eq_of_name_eq {g_pList : Linklist} (hnames : (g_pList.map Node.name).Nodup) {p q : Node}
    (hp : p ∈ g_pList) (hq : q ∈ g_pList) (h : p.name = q.name) : p = q :=
  List.inj_on_of_nodup_map hnames hp hq h

section
variable {m : Mysql} {g_pList : Linklist} {tr : RequestTrace}

/-- The friendship is stored exactly if the answer is 0. -/
theorem inserts_of_prompt (p : Node) (typed : Bytes) (names : CStr × CStr) :
    (if scanNumber typed = some 0 then [names] else []) =
      ([(p, typed)].filter (scanNumber ·.2 = some 0)).map fun _ => names := by
  by_cases h : scanNumber typed = some 0 <;> simp [h]

/-- Once its user has answered, a request is as it should be. -/
theorem RequestTrace.proper_of_answered {b : Node} {typed : Bytes} (hname : b.name = tr.desName)
    (hprompts : tr.prompts = [(b, typed)])
    (hinserts : tr.inserts =
      if scanNumber typed = some 0 then [(tr.sender.name, tr.desName)] else [])
    (hrelays : tr.relays <+: [b, tr.sender]) (hflight : tr.inFlight.length ≤ 1)
    (hback : tr.inFlight = [] → tr.relays = [b, tr.sender])
    (hprinted : tr.printed = if tr.inFlight = [] then [tr.sender] else []) : tr.Proper b where
  inFlight := hflight
  promptsAt := by simp [hprompts]
  atMostOnce := by simp [hprompts]
  exactlyOnce := by simp [hprompts]
  relays := hrelays
  relayedBack := hback
  printed := hprinted
  inserts := by
    rw [hinserts, hprompts, hname]
    exact inserts_of_prompt b typed _

/-- In every stage the request is as it should be. -/
theorem RequestTrace.Stage.proper {n : ℕ} (h : tr.Stage g_pList n) {b : Node}
    (hnames : (g_pList.map Node.name).Nodup) (hsender : tr.sender ∈ g_pList) (hb : b ∈ g_pList)
    (hname : b.name = tr.desName) (hother : b ≠ tr.sender) : tr.Proper b := by
  have hne : tr.desName ≠ tr.sender.name := fun h =>
    hother (eq_of_name_eq hnames hb hsender (hname.trans h))
  cases h with
  | requested msg hflight hmsg hrelays hprompts hinserts hprinted =>
      constructor <;> simp [hflight, hrelays, hprompts, hinserts, hprinted]
  | asked p bytes hp hpname hother hflight hhead hrelays hprompts hinserts hprinted =>
      obtain rfl := eq_of_name_eq hnames hp hb (hpname.trans hname.symm)
      constructor <;> simp [hflight, hrelays, hprompts, hinserts, hprinted]
  | replied p msg typed hp hpname hother hflight hmsg hrelays hprompts hinserts hprinted =>
      obtain rfl := eq_of_name_eq hnames hp hb (hpname.trans hname.symm)
      exact proper_of_answered hname hprompts hinserts (by simp [hrelays]) (by simp [hflight])
        (by simp [hflight]) (by simp [hflight, hprinted])
  | returning bytes hflight hhead hanswered hprinted =>
      obtain ⟨typed, hprompts, hinserts, hrelays⟩ := hanswered b hb hname hne
      exact proper_of_answered hname hprompts hinserts (by rw [hrelays]) (by simp [hflight])
        (fun _ => hrelays) (by simp [hflight, hprinted])
  | printed hflight hanswered hprinted =>
      obtain ⟨typed, hprompts, hinserts, hrelays⟩ := hanswered b hb hname hne
      exact proper_of_answered hname hprompts hinserts (by rw [hrelays]) (by simp [hflight])
        (fun _ => hrelays) (by simp [hflight, hprinted])
  | dropped hflight habsent => exact absurd hname (habsent b hb)

/-! ## One delivery -/

/-- The server handles a frame of the exchange as a friend request to the user named in it. -/
theorem procClientRequest_friendTo {s : ServerState} {msg : MsgData} {src des : CStr}
    (hmsg : msg.FriendTo src des) (cFd : ℕ) :
    procClientRequest s cFd (MsgData.ofBytes msg.toBytes) =
      .called .addFriend (procAddFriendMsg s msg des cFd) := by
  rw [MsgData.ofBytes_toBytes, procClientRequest, if_neg hmsg.body, hmsg.head.1]
  simp only [MsgType.ofCode?_code, MsgData.desNameStr_of_holds hmsg.desName]
  rfl

variable (tr) in
/-- What the server does with a frame to `des`, when the query for the name does not fail: it
refuses, finds nobody online, or relays to the node that the search finds. -/
theorem serve_cases (s : ServerState) {msg : MsgData} {src des : CStr}
    (hmsg : msg.FriendTo src des) (sender : Node)
    (hlookup : checkUserIsExist s.mysql s.tables des ≠ none) :
    (checkUserIsExist s.mysql s.tables des = some .failed ∧
      tr.serve s sender msg.toBytes = some { tr with inFlight := tr.inFlight ++
        [.toClient sender (msg.copyText addFriendRetMsg).toBytes] }) ∨
    (checkUserIsExist s.mysql s.tables des = some .success ∧
      searchName s.g_pList des = none ∧ tr.serve s sender msg.toBytes = some tr) ∨
    ∃ q, searchName s.g_pList des = some q ∧
      tr.serve s sender msg.toBytes = some { tr with
        inFlight := tr.inFlight ++ [.toClient q msg.shortFrame]
        relays := tr.relays ++ [q] } := by
  rw [RequestTrace.serve, procClientRequest_friendTo hmsg, procAddFriendMsg]
  rcases hcheck : checkUserIsExist s.mysql s.tables des with - | code
  · exact absurd hcheck hlookup
  · cases code with
    | failed =>
        left
        simp [returning, Effect.packet, Effect.relayed]
    | success =>
        right
        rcases hfound : searchName s.g_pList des with - | q
        · left
          simp [returning]
        · right
          simp [returning, Effect.packet, Effect.relayed]

variable (tr) in
/-- A client takes a frame of its own request for a reply. -/
theorem receive_reply {receiver : Node} {bytes typed : Bytes} {tables : Tables} {choice : ℤ}
    (hhead : (MsgData.ofBytes (bytes.take recvSize)).stMsgHead.FriendOf receiver.name) :
    tr.receive m tables receiver bytes typed choice =
      { tr with printed := tr.printed ++ [receiver] } := by
  have hname := MsgData.srcNameStr_of_holds hhead.2
  have hbranch : recvBranch MsgType.addFriend.code = .doProcAddFriendRequest := by decide
  simp only [RequestTrace.receive, hhead.1, hbranch, doProcAddFriendRequest, hname, if_true]

/-- A client prompts its user for a frame of another user, stores the friendship if the variable
comes to 0, and replies. -/
theorem receive_request (hconnect : m.connect = true) (tr : RequestTrace) (tables : Tables)
    (typed : Bytes) (choice : ℤ) {receiver : Node} {bytes : Bytes} {src : CStr}
    (hhead : (MsgData.ofBytes (bytes.take recvSize)).stMsgHead.FriendOf src)
    (hother : src ≠ receiver.name) :
    ∃ reply : MsgData, reply.FriendTo src src ∧
      tr.receive m tables receiver bytes typed choice = { tr with
        prompts := tr.prompts ++ [(receiver, typed)]
        inserts := tr.inserts ++ if scanf typed choice = 0 then [(src, receiver.name)] else []
        inFlight := tr.inFlight ++ [.toServer receiver reply.toBytes] } := by
  have hname := MsgData.srcNameStr_of_holds hhead.2
  have hbranch : recvBranch MsgType.addFriend.code = .doProcAddFriendRequest := by decide
  have haccepted := friendTo_turnedBack hhead acceptedMsg (by decide +kernel)
  have hrefused := friendTo_turnedBack hhead refusedMsg (by decide +kernel)
  simp only [RequestTrace.receive, hhead.1, hbranch, doProcAddFriendRequest, hname,
    if_neg hother]
  by_cases hchoice : scanf typed choice = 0
  · have hinsert : ∃ t, insertFriend2Mysql m tables src receiver.name = some t := by
      simp [insertFriend2Mysql, hconnect]
    obtain ⟨t, hinsert⟩ := hinsert
    exact ⟨_, haccepted, by simp [hchoice, hinsert]⟩
  · exact ⟨_, hrefused, by simp [hchoice]⟩

/-- The invariant of one request. -/
structure RequestTrace.Sound (g_pList : Linklist) (tr : RequestTrace) : Prop where
  sender : tr.sender ∈ g_pList
  stage : ∃ n, tr.Stage g_pList n ∧ tr.delivered + n ≤ 4

/-- Without another online user of the name nothing is asked of a request. -/
theorem answered_of_absent
    (h : ∀ p ∈ g_pList, p.name = tr.desName → tr.desName ≠ tr.sender.name → False) :
    tr.Answered g_pList :=
  fun p hp hname hother => (h p hp hname hother).elim

variable {tables : Tables} {now : Clock} {typed : Bytes} {choice : ℤ}

variable (tr) in
theorem sound_requested {msg : MsgData} (hnames : (g_pList.map Node.name).Nodup)
    (hsender : tr.sender ∈ g_pList) (hfound : UsersFound m g_pList tables)
    (hlookup : checkUserIsExist m tables tr.desName ≠ none)
    (hmsg : msg.FriendTo tr.sender.name tr.desName) (hflight : tr.inFlight = [])
    (hrelays : tr.relays = []) (hprompts : tr.prompts = []) (hinserts : tr.inserts = [])
    (hprinted : tr.printed = []) (hdelivered : tr.delivered ≤ 1) :
    ∃ tr', tr.serve ⟨m, tables, g_pList, now⟩ tr.sender msg.toBytes = some tr' ∧
      tr'.Sound g_pList := by
  rcases serve_cases tr ⟨m, tables, g_pList, now⟩ hmsg tr.sender hlookup with
    ⟨hrefused, hserve⟩ | ⟨-, hnone, hserve⟩ | ⟨q, hq, hserve⟩
  · have habsent : ∀ p ∈ g_pList, p.name = tr.desName → tr.desName ≠ tr.sender.name → False := by
      intro p hp hname _
      have hregistered := hfound p hp
      rw [hname, hrefused] at hregistered
      exact absurd hregistered (by decide)
    refine ⟨_, hserve, hsender, 1, .returning _ (by rw [hflight]; rfl) ?_
      (answered_of_absent habsent) hprinted, (Nat.add_le_add_right hdelivered 1).trans (by decide)⟩
    rw [(stMsgHead_received _).2]
    exact hmsg.head
  · have habsent : ∀ p ∈ g_pList, p.name ≠ tr.desName := searchName_eq_none_iff.mp hnone
    exact ⟨tr, hserve, hsender, 0, .dropped hflight habsent, by omega⟩
  · have hqname := name_of_searchName hq
    have hqmem := mem_of_searchName hq
    have hhead : (MsgData.ofBytes (msg.shortFrame.take recvSize)).stMsgHead.FriendOf
        tr.sender.name := by
      rw [(stMsgHead_received _).1]
      exact hmsg.head
    refine ⟨_, hserve, ?_⟩
    by_cases hself : tr.desName = tr.sender.name
    · obtain rfl := eq_of_name_eq hnames hqmem hsender (hqname.trans hself)
      refine ⟨hsender, 1, .returning _ (by rw [hflight]; rfl) hhead ?_ hprinted,
        (Nat.add_le_add_right hdelivered 1).trans (by decide)⟩
      exact answered_of_absent fun p _ _ hother => hother hself
    · exact ⟨hsender, 3, .asked q _ hqmem hqname hself (by rw [hflight]; rfl) hhead
        (by rw [hrelays]; rfl) hprompts hinserts hprinted, Nat.add_le_add_right hdelivered 3⟩

variable (tr) in
theorem sound_asked {p : Node} {bytes : Bytes} (hp : p ∈ g_pList)
    (hsender : tr.sender ∈ g_pList) (hconnect : m.connect = true)
    (hanswer : ∃ z ∈ scanNumber typed, -2 ^ 31 ≤ z ∧ z < 2 ^ 31)
    (hname : p.name = tr.desName) (hother : tr.desName ≠ tr.sender.name)
    (hhead : (MsgData.ofBytes (bytes.take recvSize)).stMsgHead.FriendOf tr.sender.name)
    (hflight : tr.inFlight = []) (hrelays : tr.relays = [p]) (hprompts : tr.prompts = [])
    (hinserts : tr.inserts = []) (hprinted : tr.printed = []) (hdelivered : tr.delivered ≤ 2) :
    (tr.receive m tables p bytes typed choice).Sound g_pList := by
  have hne : tr.sender.name ≠ p.name := fun h => hother (hname.symm.trans h.symm)
  obtain ⟨reply, hreply, hreceive⟩ :=
    receive_request hconnect tr tables typed choice hhead hne
  obtain ⟨z, hz, hlow, hhigh⟩ := hanswer
  have hchoice : scanf typed choice = 0 ↔ scanNumber typed = some 0 := by
    rw [scanf_of_number hz hlow hhigh, hz, Option.some.injEq]
  rw [hreceive]
  exact ⟨hsender, 2, .replied p reply typed hp hname hother (by simp [hflight]) hreply hrelays
    (by simp [hprompts]) (by simp [hinserts, hname, hchoice]) hprinted,
    Nat.add_le_add_right hdelivered 2⟩

variable (tr) in
theorem sound_replied {p : Node} {msg : MsgData} (hp : p ∈ g_pList)
    (hnames : (g_pList.map Node.name).Nodup) (hsender : tr.sender ∈ g_pList)
    (hfound : UsersFound m g_pList tables) (hname : p.name = tr.desName)
    (hmsg : msg.FriendTo tr.sender.name tr.sender.name) (hflight : tr.inFlight = [])
    (hrelays : tr.relays = [p]) (hprompts : tr.prompts = [(p, typed)])
    (hinserts : tr.inserts =
      if scanNumber typed = some 0 then [(tr.sender.name, tr.desName)] else [])
    (hprinted : tr.printed = []) (hdelivered : tr.delivered ≤ 3) :
    ∃ tr', tr.serve ⟨m, tables, g_pList, now⟩ p msg.toBytes = some tr' ∧ tr'.Sound g_pList := by
  have hregistered := hfound tr.sender hsender
  have hlookup : checkUserIsExist m tables tr.sender.name ≠ none := by rw [hregistered]; simp
  rcases serve_cases tr ⟨m, tables, g_pList, now⟩ hmsg p hlookup with
    ⟨hrefused, -⟩ | ⟨-, hnone, -⟩ | ⟨q, hq, hserve⟩
  · exact absurd (hregistered.symm.trans hrefused) (by decide)
  · exact absurd rfl (searchName_eq_none_iff.mp hnone tr.sender hsender)
  · obtain rfl := eq_of_name_eq hnames (mem_of_searchName hq) hsender (name_of_searchName hq)
    have hhead : (MsgData.ofBytes (msg.shortFrame.take recvSize)).stMsgHead.FriendOf
        tr.sender.name := by
      rw [(stMsgHead_received _).1]
      exact hmsg.head
    refine ⟨_, hserve, hsender, 1, .returning _ (by rw [hflight]; rfl) hhead ?_ hprinted,
      Nat.add_le_add_right hdelivered 1⟩
    intro b hb hbname _
    obtain rfl := eq_of_name_eq hnames hb hp (hbname.trans hname.symm)
    exact ⟨typed, hprompts, hinserts, by rw [hrelays]; rfl⟩

/-- With one frame in flight, nothing is left when it is read. -/
theorem inFlight_taken {packet : Packet} (hflight : tr.inFlight = [packet]) :
    (tr.taken packet).inFlight = [] := by
  simp [RequestTrace.taken, hflight]

end
/-! ## Any number of requests -/

/-- At the time of a delivery all users who are online are found in the database. -/
def ExchangeStep.UsersFound (m : Mysql) (g_pList : Linklist) : ExchangeStep → Prop
  | typed _ _ _ => True
  | deliver _ _ tables _ _ _ => ChatRoom.UsersFound m g_pList tables

/-- The query for the name asked for does not fail, and who is prompted types a number in the
range of `int`. -/
def ExchangeStep.Understood (m : Mysql) (s : Exchange) : ExchangeStep → Prop
  | typed _ _ _ => True
  | deliver k (.toServer _ _) tables _ _ _ =>
      ∀ tr ∈ s.requests[k]?, checkUserIsExist m tables tr.desName ≠ none
  | deliver k (.toClient receiver _) _ _ answer _ =>
      ∀ tr ∈ s.requests[k]?, receiver ≠ tr.sender →
        ∃ z ∈ scanNumber answer, -2 ^ 31 ≤ z ∧ z < 2 ^ 31

instance (m : Mysql) (s : Exchange) : ∀ step : ExchangeStep, Decidable (step.Understood m s)
  | .typed _ _ _ => isTrue trivial
  | .deliver _ (.toServer _ _) _ _ _ _ => inferInstanceAs (Decidable (∀ _ ∈ _, _))
  | .deliver _ (.toClient _ _) _ _ _ _ => inferInstanceAs (Decidable (∀ _ ∈ _, _))

def ExchangeStep.isDelivery : ExchangeStep → Bool
  | typed _ _ _ => false
  | deliver _ _ _ _ _ _ => true

/-- The invariant of the exchange. -/
structure Exchange.Sound (g_pList : Linklist) (s : Exchange) : Prop where
  up : s.up = true
  requests : ∀ tr ∈ s.requests, tr.Sound g_pList

section
variable {m : Mysql} {g_pList : Linklist} {s s' : Exchange} {k : ℕ} {tr : RequestTrace}
  {packet : Packet} {tables : Tables} {now : Clock} {typed : Bytes} {choice : ℤ}

/-- What a step does: it adds new requests, or moves one on. -/
theorem step_deliver
    (h : exchangeStep m g_pList s (.deliver k packet tables now typed choice) = some s') :
    ∃ tr, s.requests[k]? = some tr ∧ packet ∈ tr.inFlight ∧
      s.deliver m g_pList k tr packet tables now typed choice = some s' := by
  simp only [exchangeStep] at h
  split at h
  · exact absurd h (by simp)
  · rename_i tr htr
    split_ifs at h with hpacket
    exact ⟨tr, htr, hpacket, h⟩

theorem step_typed {sender : Node} {pClientData : MsgData} {desName : Name}
    (h : exchangeStep m g_pList s (.typed sender pClientData desName) = some s') :
    sender ∈ g_pList ∧ pClientData.stMsgHead.srcName.Holds sender.name ∧
      s' = { s with
        requests := s.requests ++ (dispatchClientRequest pClientData [.addFriend desName]).map
          fun w => .start sender desName w.bytes } := by
  simp only [exchangeStep, Option.ite_none_right_eq_some, Option.some.injEq] at h
  exact ⟨h.1.2.1, h.1.2.2, h.2.symm⟩

/-- A client moves its request on. -/
theorem Exchange.Sound.set (hs : s.Sound g_pList) {tr' : RequestTrace}
    (htr' : tr'.Sound g_pList) :
    Exchange.Sound g_pList { s with requests := s.requests.set k tr' } where
  up := hs.up
  requests := fun x hx => (List.mem_or_eq_of_mem_set hx).elim (hs.requests x) (· ▸ htr')

/-- The server moves a request on, unless the process ends. -/
theorem Exchange.Sound.serve (hs : s.Sound g_pList) {sender : Node} {bytes : Bytes}
    (hserve : ∃ tr', (tr.taken (.toServer sender bytes)).serve ⟨m, tables, g_pList, now⟩ sender
      bytes = some tr' ∧ tr'.Sound g_pList)
    (h : s.deliver m g_pList k tr (.toServer sender bytes) tables now typed choice = some s') :
    s'.Sound g_pList := by
  obtain ⟨tr', htr', hsound⟩ := hserve
  simp only [Exchange.deliver, htr', Option.ite_none_right_eq_some, Option.some.injEq] at h
  exact h.2 ▸ hs.set hsound

/-- A delivery moves a request on to a later stage. -/
theorem sound_deliver (hnames : (g_pList.map Node.name).Nodup) (hs : s.Sound g_pList)
    (hfound : UsersFound m g_pList tables) (htr : s.requests[k]? = some tr)
    (hunderstood : (ExchangeStep.deliver k packet tables now typed choice).Understood m s)
    (hpacket : packet ∈ tr.inFlight)
    (h : s.deliver m g_pList k tr packet tables now typed choice = some s') :
    s'.Sound g_pList := by
  obtain ⟨hsender, n, hstage, hrank⟩ := hs.requests tr (List.mem_of_getElem? htr)
  have hdelivered : (tr.taken packet).delivered ≤ 5 - n := by
    simp only [RequestTrace.taken]
    omega
  cases hstage with
  | requested msg hflight hmsg hrelays hprompts hinserts hprinted =>
      obtain rfl := List.mem_singleton.mp (hflight ▸ hpacket)
      exact hs.serve (sound_requested (tr.taken _) hnames hsender hfound (hunderstood tr htr) hmsg
        (inFlight_taken hflight) hrelays hprompts hinserts hprinted hdelivered) h
  | asked p bytes hp hname hother hflight hhead hrelays hprompts hinserts hprinted =>
      obtain rfl := List.mem_singleton.mp (hflight ▸ hpacket)
      obtain rfl := Option.some.inj h
      have hne : p ≠ tr.sender := fun heq => hother (heq ▸ hname.symm)
      exact hs.set (sound_asked (tr.taken _) hp hsender (hfound.connect hp)
        (hunderstood tr htr hne) hname hother hhead (inFlight_taken hflight) hrelays hprompts
        hinserts hprinted hdelivered)
  | replied p msg answer hp hname hother hflight hmsg hrelays hprompts hinserts hprinted =>
      obtain rfl := List.mem_singleton.mp (hflight ▸ hpacket)
      exact hs.serve (sound_replied (tr.taken _) hp hnames hsender hfound hname hmsg
        (inFlight_taken hflight) hrelays hprompts hinserts hprinted hdelivered) h
  | returning bytes hflight hhead hanswered hprinted =>
      obtain rfl := List.mem_singleton.mp (hflight ▸ hpacket)
      obtain rfl := Option.some.inj h
      rw [receive_reply (tr.taken _) hhead]
      exact hs.set ⟨hsender, 0, .printed (inFlight_taken hflight) hanswered
        (by simp [RequestTrace.taken, hprinted]), hdelivered⟩
  | printed hflight hanswered hprinted =>
      rw [hflight] at hpacket
      exact absurd hpacket List.not_mem_nil
  | dropped hflight habsent =>
      rw [hflight] at hpacket
      exact absurd hpacket List.not_mem_nil

theorem sound_exchangeStep (hnames : (g_pList.map Node.name).Nodup) {step : ExchangeStep}
    (hs : s.Sound g_pList) (hfound : step.UsersFound m g_pList) (hunderstood : step.Understood m s)
    (h : exchangeStep m g_pList s step = some s') : s'.Sound g_pList := by
  cases step with
  | typed sender pClientData desName =>
      obtain ⟨hsender, hsrc, rfl⟩ := step_typed h
      refine ⟨hs.up, fun tr htr => ?_⟩
      rcases List.mem_append.mp htr with htr | htr
      · exact hs.requests tr htr
      · obtain ⟨w, hw, rfl⟩ := List.mem_map.mp htr
        obtain ⟨msg, hbytes, hmsg⟩ := friendTo_of_mem_writes hsrc hw
        exact ⟨hsender, 4, .requested msg (by rw [hbytes]; rfl) hmsg rfl rfl rfl rfl, le_refl 4⟩
  | deliver k packet tables now typed choice =>
      obtain ⟨tr, htr, hpacket, hdeliver⟩ := step_deliver h
      exact sound_deliver hnames hs hfound htr hunderstood hpacket hdeliver

theorem Exchange.Sound.proper (hnames : (g_pList.map Node.name).Nodup) (hs : s.Sound g_pList) :
    s.Proper g_pList := by
  refine ⟨hs.up, fun tr htr => ?_⟩
  obtain ⟨hsender, n, hstage, hrank⟩ := hs.requests tr htr
  exact ⟨by omega, fun b hb hname hother => hstage.proper hnames hsender hb hname hother⟩

/-! ## The number of deliveries -/

/-- The deliveries of all requests together. -/
def deliveries (requests : List RequestTrace) : ℕ := (requests.map (·.delivered)).sum

theorem deliveries_set {requests : List RequestTrace} {tr' : RequestTrace}
    (htr : requests[k]? = some tr) (hcount : tr'.delivered = tr.delivered + 1) :
    deliveries (requests.set k tr') = deliveries requests + 1 := by
  induction requests generalizing k with
  | nil => simp at htr
  | cons x rest ih =>
      cases k with
      | zero =>
          obtain rfl : x = tr := by simpa using htr
          simp only [deliveries, List.set_cons_zero, List.map_cons, List.sum_cons, hcount]
          omega
      | succ k =>
          have hrest := ih (k := k) (by simpa using htr)
          simp only [deliveries, List.set_cons_succ, List.map_cons, List.sum_cons] at hrest ⊢
          omega

theorem delivered_serve {state : ServerState} {sender : Node} {bytes : Bytes}
    {tr' : RequestTrace} (h : tr.serve state sender bytes = some tr') :
    tr'.delivered = tr.delivered := by
  simp only [RequestTrace.serve] at h
  split at h
  · rw [← Option.some.inj h]
  · split_ifs at h
    rw [← Option.some.inj h]
  · exact absurd h (by simp)

theorem delivered_receive {receiver : Node} {bytes : Bytes} :
    (tr.receive m tables receiver bytes typed choice).delivered = tr.delivered := by
  rw [RequestTrace.receive]
  split
  · rfl
  · rfl
  · split <;> rfl

/-- A delivery is counted once. -/
theorem deliveries_deliver (htr : s.requests[k]? = some tr)
    (h : s.deliver m g_pList k tr packet tables now typed choice = some s') :
    deliveries s'.requests = deliveries s.requests + 1 := by
  cases packet with
  | toServer sender bytes =>
      simp only [Exchange.deliver, Option.ite_none_right_eq_some] at h
      obtain ⟨-, h⟩ := h
      split at h
      · rename_i tr' htr'
        obtain rfl := Option.some.inj h
        exact deliveries_set htr (delivered_serve htr')
      · obtain rfl := Option.some.inj h
        exact deliveries_set htr rfl
  | toClient receiver bytes =>
      obtain rfl := Option.some.inj h
      exact deliveries_set htr delivered_receive

/-- Every delivery of a run is a delivery for one request. -/
theorem deliveries_run {steps : List ExchangeStep}
    (h : run (exchangeStep m g_pList) s steps = some s') :
    deliveries s'.requests =
      deliveries s.requests + (steps.filter ExchangeStep.isDelivery).length := by
  induction steps generalizing s with
  | nil =>
      cases h
      rfl
  | cons step rest ih =>
      obtain ⟨mid, hmid, hrest⟩ := Option.bind_eq_some_iff.mp h
      rw [ih hrest]
      cases step with
      | typed sender pClientData desName =>
          obtain ⟨-, -, rfl⟩ := step_typed hmid
          simp [deliveries, ExchangeStep.isDelivery, RequestTrace.start, Function.comp_def]
      | deliver k packet tables now typed choice =>
          obtain ⟨tr, htr, -, hdeliver⟩ := step_deliver hmid
          rw [deliveries_deliver htr hdeliver]
          rw [List.filter_cons_of_pos rfl, List.length_cons]
          omega

end

theorem deliveries_le {requests : List RequestTrace} (h : ∀ tr ∈ requests, tr.delivered ≤ 4) :
    deliveries requests ≤ 4 * requests.length := by
  rw [Nat.mul_comm]
  simpa [deliveries] using List.sum_le_card_nsmul (requests.map (·.delivered)) 4 (by simpa using h)

/-! ## The exchange -/

/-- Between clients with different names, who are all found in the database, every request to
another online user is as it should be at any time, and the exchange ends after at most four
deliveries for each request, when every answer is a number that an `int` holds and no query for a
name asked for fails. -/
theorem friendRequests_proper {m : Mysql} {g_pList : Linklist}
    (hnames : (g_pList.map Node.name).Nodup) {steps : List ExchangeStep}
    (hfound : ∀ step ∈ steps, step.UsersFound m g_pList)
    (hunderstood : EveryStep (exchangeStep m g_pList) (fun s step => step.Understood m s) .start
      steps) :
    EveryState (exchangeStep m g_pList) (Exchange.Proper g_pList) .start steps ∧
      ∀ s, run (exchangeStep m g_pList) .start steps = some s →
        (steps.filter ExchangeStep.isDelivery).length ≤ 4 * s.requests.length := by
  have hstart : Exchange.start.Sound g_pList := ⟨rfl, fun _ htr => absurd htr List.not_mem_nil⟩
  have hguard := (everyStep_of_forall_mem (exchangeStep m g_pList) .start hfound).and hunderstood
  have hproper : EveryState (exchangeStep m g_pList) (Exchange.Proper g_pList) .start steps :=
    everyState_of_guarded (fun s step s' hs hstep => sound_exchangeStep hnames hs hstep.1 hstep.2)
      (fun s hs => hs.proper hnames) hstart hguard
  refine ⟨hproper, fun s hrun => ?_⟩
  have hcount := deliveries_run hrun
  rw [show deliveries Exchange.start.requests = 0 from rfl, Nat.zero_add] at hcount
  rw [← hcount]
  exact deliveries_le fun tr htr => ((hproper.last hrun).2 tr htr).1

/-! ## "a" asks "b" -/

def nodeA : Node := ⟨lit "a", 5⟩
def nodeB : Node := ⟨lit "b", 6⟩

def tablesAB : Tables := ⟨[⟨utf8 "a", [], []⟩, ⟨utf8 "b", [], []⟩], [], []⟩

theorem strlen_b : (lit "b").strlen ≤ maxNameLen := by decide

/-- The frames of the whole exchange, when `typed` is the answer and comes to `text`. -/
def exchangeAB (typed : Bytes) (text : CStr) : List ExchangeStep :=
  let request := MsgData.make .addFriend (lit "a") (lit "b") (lit "")
  let reply := (MsgData.ofBytes request.shortFrame).turnedBack.setText text
  [.typed nodeA (MsgData.make .showAll (lit "a") (lit "") (lit "")) ⟨lit "b", strlen_b⟩,
    .deliver 0 (.toServer nodeA request.toBytes) tablesAB .midnight [] 0,
    .deliver 0 (.toClient nodeB request.shortFrame) tablesAB .midnight typed 0,
    .deliver 0 (.toServer nodeB reply.toBytes) tablesAB .midnight [] 0,
    .deliver 0 (.toClient nodeA reply.shortFrame) tablesAB .midnight [] 0]

theorem nodup_names : (([nodeA, nodeB] : Linklist).map Node.name).Nodup := by decide

theorem usersFound_exchangeAB (typed : Bytes) (text : CStr) :
    ∀ step ∈ exchangeAB typed text, step.UsersFound Mysql.referenceClient [nodeA, nodeB] := by
  have htables : UsersFound Mysql.referenceClient [nodeA, nodeB] tablesAB := by
    unfold UsersFound
    decide +kernel
  simp only [exchangeAB, List.forall_mem_cons, ExchangeStep.UsersFound]
  exact ⟨trivial, htables, htables, htables, htables, fun _ h => absurd h List.not_mem_nil⟩

/-- From whom a request came and to whom, who has been prompted, what has been stored and who
has printed a frame. -/
structure RequestOutcome where
  sender : Node
  desName : CStr
  prompts : List (Node × Bytes)
  inserts : List (CStr × CStr)
  printed : List Node
deriving DecidableEq

def Exchange.outcomes (s : Exchange) : List RequestOutcome :=
  s.requests.map fun tr => ⟨tr.sender, tr.desName, tr.prompts, tr.inserts, tr.printed⟩

/-- "b" accepts. -/
theorem friendRequests_proper_accepted :
    EveryState (exchangeStep Mysql.referenceClient [nodeA, nodeB]) (Exchange.Proper [nodeA, nodeB])
        .start (exchangeAB (utf8 "0\n") acceptedMsg) ∧
      ∃ s, run (exchangeStep Mysql.referenceClient [nodeA, nodeB]) .start
          (exchangeAB (utf8 "0\n") acceptedMsg) = some s ∧
        s.outcomes = [⟨nodeA, lit "b", [(nodeB, utf8 "0\n")], [(lit "a", lit "b")], [nodeA]⟩] ∧
        4 ≤ 4 * s.requests.length := by
  have hunderstood : EveryStep (exchangeStep Mysql.referenceClient [nodeA, nodeB])
      (fun s step => step.Understood Mysql.referenceClient s) .start
      (exchangeAB (utf8 "0\n") acceptedMsg) := by
    decide +kernel
  have houtcome : (run (exchangeStep Mysql.referenceClient [nodeA, nodeB]) .start
      (exchangeAB (utf8 "0\n") acceptedMsg)).map Exchange.outcomes =
        some [⟨nodeA, lit "b", [(nodeB, utf8 "0\n")], [(lit "a", lit "b")], [nodeA]⟩] := by
    decide +kernel
  obtain ⟨s, hrun, hs⟩ := Option.map_eq_some_iff.mp houtcome
  obtain ⟨hproper, hcount⟩ := friendRequests_proper nodup_names
    (usersFound_exchangeAB (utf8 "0\n") acceptedMsg) hunderstood
  exact ⟨hproper, s, hrun, hs, hcount s hrun⟩

/-- "b" answers with a number whose lower half is 0: the friendship is stored. -/
theorem not_friendRequests_proper :
    ¬ ∀ (m : Mysql) (g_pList : Linklist), (g_pList.map Node.name).Nodup →
      ∀ steps : List ExchangeStep, (∀ step ∈ steps, step.UsersFound m g_pList) →
        EveryState (exchangeStep m g_pList) (Exchange.Proper g_pList) .start steps := by
  intro h
  have houtcome : (run (exchangeStep Mysql.referenceClient [nodeA, nodeB]) .start
      (exchangeAB (utf8 "4294967296\n") acceptedMsg)).map Exchange.outcomes =
        some [⟨nodeA, lit "b", [(nodeB, utf8 "4294967296\n")], [(lit "a", lit "b")], [nodeA]⟩] := by
    decide +kernel
  obtain ⟨s, hrun, hs⟩ := Option.map_eq_some_iff.mp houtcome
  obtain ⟨-, hproper⟩ := (h _ _ nodup_names _ (usersFound_exchangeAB _ acceptedMsg)).last hrun
  obtain ⟨tr, hrequests, htr⟩ := List.map_eq_singleton_iff.mp hs
  rw [RequestOutcome.mk.injEq] at htr
  obtain ⟨hsender, hdesName, hprompts, hinserts, -⟩ := htr
  have htrMem : tr ∈ s.requests := by rw [hrequests]; exact List.mem_singleton_self tr
  have hname : nodeB.name = tr.desName := hdesName.symm
  have hother : nodeB ≠ tr.sender := by
    rw [hsender]
    decide
  have hstored := ((hproper tr htrMem).2 nodeB (by decide) hname hother).inserts
  rw [hprompts, hinserts] at hstored
  have hrefused : ([(nodeB, utf8 "4294967296\n")].filter (scanNumber ·.2 = some 0)) = [] := by
    decide
  rw [hrefused] at hstored
  cases hstored

end ChatRoom
