import ChatRoom.Client.Ban
import ChatRoom.Client.Send
import ChatRoom.Server.Friends
import ChatRoom.Support.StepSystem

/-!
# Does a ban take effect?

An administrator sets and clears the ban of a user in the database.  The user's client asks
for it at one place, when a chat dialogue is chosen from the menu; what is typed in the
dialogue afterwards is sent without asking again, and the file dialogue never asks.  The
server does not ask either.
-/

namespace ChatRoom

open CString SqlText StepSystem

/-! ## The client, input by input -/

/-- Where the client stands: at the menu, in a chat dialogue, which writes with a fixed count
and was chosen with or without a ban, in the file dialogue, or it has left. -/
inductive ClientPhase where
  | menu
  | chat (count : ℕ) (chosenUnderBan : Bool)
  | files
  | left

/-- A frame on its way to the server, and whether its writer was banned when it was written. -/
structure SentFrame where
  write : ClientWrite
  underBan : Bool

/-- The tables, the client of one user, and the server.  `pending` is what the client still has
to write before it reads the next input. -/
structure BanState where
  tables : Tables
  phase : ClientPhase
  pClientData : MsgData
  pending : List ClientWrite
  inFlight : List SentFrame
  serverUp : Bool

/-- What the user types: a choice from the menu with the name that follows it, a line of a chat
dialogue, or a command of the file dialogue. -/
inductive ClientInput where
  | sendOne (desName : Name) (unwritten : Unwritten)
  | sendAll (unwritten : Unwritten)
  | sendFile (recvName : RecvName)
  | other (request : Request)
  | logout
  | line (pcMsg : Line)
  | command (cmd : FtpCommand)

instance (enMsgType : MsgType) : Decidable enMsgType.BetweenFriends :=
  inferInstanceAs (Decidable (_ ∨ _ ∨ _))

/-- The message type of a choice, filled into the client's structure. -/
def MsgData.setType (msg : MsgData) (enMsgType : MsgType) : MsgData :=
  let head := msg.stMsgHead
  { msg with stMsgHead := { head with enMsgType := enMsgType.code } }

/-- A function of the client has filled the structure, has something to write, and leaves the
client in the given phase. -/
def BanState.writing (s : BanState) (sent : MsgData × List ClientWrite) (phase : ClientPhase) :
    BanState :=
  { s with pClientData := sent.1, pending := sent.2, phase := phase }

/-- Choices 4 and 5 of `dispatchClientRequest`: the ban is asked for, once. -/
def chooseChat (m : Mysql) (u : CStr) (s : BanState) (request : Request)
    (phase : ClientPhase) (unwritten : Unwritten) : BanState :=
  let msg := s.pClientData.setType request.enMsgType
  match IsBan m s.tables u unwritten with
  | none => { s with phase := .left }
  | some true => { s with pClientData := msg }
  | some false => s.writing (dispatchMsg msg.clearBody request) phase

/-- One input, in the phase that reads it.  The dialogue of a request starts without lines. -/
def clientInput (m : Mysql) (u : CStr) (s : BanState) :
    ClientPhase → ClientInput → Option BanState
  | .menu, .sendOne desName unwritten =>
      let phase := if desName.val = lit "exit" then .menu
        else .chat sizeofMsgData (s.tables.banned u)
      some (chooseChat m u s (.sendOne desName []) phase unwritten)
  | .menu, .sendAll unwritten =>
      let phase := .chat (sizeofMsgHead + maxWordLen) (s.tables.banned u)
      some (chooseChat m u s (.sendAll []) phase unwritten)
  | .menu, .sendFile recvName =>
      let msg := s.pClientData.setType .sendFile
      let phase := if recvName.val = lit "exit" then .menu else .files
      some (s.writing (dispatchMsg msg.clearBody (.sendFile recvName [])) phase)
  | .menu, .other request =>
      -- the list of all users is for the administrator
      if ¬ request.enMsgType.BetweenFriends ∧ (request.enMsgType = .showAll → u = lit "admin") then
        let msg := s.pClientData.setType request.enMsgType
        some (s.writing (dispatchMsg msg.clearBody request) .menu)
      else none
  | .menu, .logout => some { s with phase := .left }
  | .chat count chosenUnderBan, .line pcMsg =>
      let phase := if pcMsg.val = lit "exit" then .menu else .chat count chosenUnderBan
      some (s.writing (sendLines count s.pClientData [pcMsg]) phase)
  | .files, .command cmd =>
      let phase := if cmd.command.val = lit "exit" then .menu else .files
      some (s.writing (ftpLoop s.pClientData [cmd]) phase)
  | _, _ => none

/-! ## The system -/

/-- The administrator sets or clears a ban, other clients and handlers work on the tables, the
user types, the user's client makes one write, or the server serves the next frame. -/
inductive BanStep where
  | banOne (flag : Bool) (username : CStr)
  | others (tables : Tables)
  | input (i : ClientInput)
  | write
  | serve (g_pList : Linklist) (srcFd : ℕ) (now : Clock)

/-- The turn of the server's loop for a frame. -/
def SentFrame.turn (m : Mysql) (tables : Tables) (g_pList : Linklist) (srcFd : ℕ) (now : Clock)
    (frame : SentFrame) : LoopTurn :=
  procClientRequest ⟨m, tables, g_pList, now⟩ srcFd (MsgData.ofBytes frame.write.bytes)

/-- One step.  Each write is read by one `read`, and nobody but the administrator changes the
ban of the user. -/
def banStep (m : Mysql) (u : CStr) (s : BanState) : BanStep → Option BanState
  | .banOne flag username => some { s with tables := banOne m s.tables flag username }
  | .others tables =>
      if tables.banned u = s.tables.banned u then some { s with tables := tables } else none
  | .input i => if s.pending.isEmpty then clientInput m u s s.phase i else none
  | .write =>
      match s.pending with
      | [] => none
      | w :: rest =>
          let frame : SentFrame := ⟨w, s.tables.banned u⟩
          some { s with pending := rest, inFlight := s.inFlight ++ [frame] }
  | .serve g_pList srcFd now =>
      match s.serverUp, s.inFlight with
      | true, frame :: rest =>
          match frame.turn m s.tables g_pList srcFd now with
          | .called _ result =>
              some { s with tables := result.tables, inFlight := rest, serverUp := !result.exited }
          | .skipped => some { s with inFlight := rest }
          | .outOfTable => some { s with inFlight := rest, serverUp := false }
      | _, _ => none

def Effect.OnlyTo (u : CStr) : Effect → Prop
  | relay pDestNode _ => pDestNode.name = u
  | reply _ _ => True

instance (u : CStr) : (e : Effect) → Decidable (e.OnlyTo u)
  | .relay _ _ => inferInstanceAs (Decidable (_ = _))
  | .reply _ _ => isTrue trivial

/-- A handler of the three types relays only to sockets of `u` and stores only rows for `u`. -/
def LoopTurn.ReachesOnly (u : CStr) (t : Tables) : LoopTurn → Prop
  | called enMsgType result => enMsgType.BetweenFriends →
      (∀ e ∈ result.effects, e.OnlyTo u) ∧
        ∀ row ∈ result.tables.message, row ∈ t.message ∨ row.desName = u.bytes
  | skipped | outOfTable => True

instance (u : CStr) (t : Tables) : (turn : LoopTurn) → Decidable (turn.ReachesOnly u t)
  | .called _ _ => inferInstanceAs (Decidable (_ → _))
  | .skipped | .outOfTable => isTrue trivial

/-- A message or file frame that was written under the ban reaches nobody else. -/
def BanRespected (m : Mysql) (u : CStr) (s : BanState) : BanStep → Prop
  | .serve g_pList srcFd now => ∀ frame ∈ s.inFlight.head?, frame.underBan = true →
      (frame.turn m s.tables g_pList srcFd now).ReachesOnly u s.tables
  | _ => True

instance (m : Mysql) (u : CStr) (s : BanState) : (a : BanStep) → Decidable (BanRespected m u s a)
  | .serve g_pList srcFd now =>
      inferInstanceAs (Decidable (∀ frame ∈ s.inFlight.head?, frame.underBan = true →
        (frame.turn m s.tables g_pList srcFd now).ReachesOnly u s.tables))
  | .banOne _ _ | .others _ | .input _ | .write => isTrue trivial

/-- Writes that the menu's check of the ban covers: those of a chat dialogue that was chosen
under the ban, and of requests that send no message. -/
def ClientPhase.covered : ClientPhase → Bool
  | chat _ chosenUnderBan => chosenUnderBan
  | files => false
  | menu | left => true

/-- While the ban is set, nothing is written in a chat dialogue that was chosen before, and
nothing of a file. -/
def StopsWriting (u : CStr) (s : BanState) : BanStep → Prop
  | .write => s.tables.banned u = true → s.phase.covered = true
  | _ => True

instance (u : CStr) (s : BanState) : (a : BanStep) → Decidable (StopsWriting u s a)
  | .write => inferInstanceAs (Decidable (_ → _))
  | .banOne _ _ | .others _ | .input _ | .serve _ _ _ => isTrue trivial

/-! ## The dialogues -/

/-- Typed and written one by one, the lines of a dialogue are written as by the send
function. -/
theorem run_lines {m : Mysql} {u : CStr} {count : ℕ} {chosenUnderBan : Bool} {lines : List Line}
    (hlines : ∀ pcMsg ∈ lines, pcMsg.val ≠ lit "exit") {s : BanState}
    (hphase : s.phase = .chat count chosenUnderBan) (hpending : s.pending = []) :
    run (banStep m u) s (lines.flatMap fun pcMsg => [.input (.line pcMsg), .write]) =
      some { s with
        pClientData := (sendLines count s.pClientData lines).1
        inFlight := s.inFlight ++ (sendLines count s.pClientData lines).2.map
          fun w => ⟨w, s.tables.banned u⟩ } := by
  induction lines generalizing s with
  | nil => simp [sendLines]
  | cons pcMsg rest ih =>
      have hline := hlines pcMsg List.mem_cons_self
      have hrest : ∀ q ∈ rest, q.val ≠ lit "exit" := fun q hq =>
        hlines q (List.mem_cons_of_mem pcMsg hq)
      let msg := s.pClientData.clearBody.copyText pcMsg
      let frame : SentFrame := ⟨⟨msg, count⟩, s.tables.banned u⟩
      let s' : BanState := { s with pClientData := msg, inFlight := s.inFlight ++ [frame] }
      have htyped : run (banStep m u) s [.input (.line pcMsg), .write] = some s' := by
        simp [banStep, hpending, hphase, clientInput, sendLines, hline, BanState.writing, s', frame,
          msg]
      have hstep : sendLines count s.pClientData (pcMsg :: rest) =
          ((sendLines count msg rest).1, ⟨msg, count⟩ :: (sendLines count msg rest).2) := by
        simp only [sendLines, if_neg hline, msg]
      rw [List.flatMap_cons, run_append, htyped, Option.bind_some,
        ih (s := s') hrest hphase hpending, hstep]
      simp [s', frame]

/-! ## The invariant -/

/-- The frame is not of one of the three types. -/
def ClientWrite.SendsNothing (w : ClientWrite) : Prop :=
  ∀ enMsgType, MsgType.ofCode? (MsgData.ofBytes w.bytes).stMsgHead.enMsgType = some enMsgType →
    ¬ enMsgType.BetweenFriends

/-- No chat dialogue chosen under the ban is open, and no message or file frame was written
under it. -/
structure BanState.Silent (s : BanState) : Prop where
  chosen : ∀ count chosenUnderBan, s.phase = .chat count chosenUnderBan → chosenUnderBan = false
  pending : (s.phase = .menu ∨ s.phase = .left) → ∀ w ∈ s.pending, w.SendsNothing
  inFlight : ∀ frame ∈ s.inFlight, frame.underBan = true → frame.write.SendsNothing

/-- A request that is not of the three types writes frames of its own type. -/
theorem sendsNothing_dispatchMsg {msg : MsgData} {request : Request}
    (hrequest : ¬ request.enMsgType.BetweenFriends)
    (hmsg : msg.stMsgHead.enMsgType = request.enMsgType.code) {w : ClientWrite}
    (hw : w ∈ (dispatchMsg msg request).2) : w.SendsNothing := by
  have hcount := count_of_mem_dispatchMsg hw
  have htype : w.count = sizeofMsgData ∧ w.msg.stMsgHead.enMsgType = msg.stMsgHead.enMsgType := by
    cases request with
    | showAll | showFriend =>
        rw [List.mem_singleton.mp hw]
        exact ⟨rfl, rfl⟩
    | addFriend desName | delFriend desName =>
        simp only [dispatchMsg, sendAddFriendMsg, sendDelFriendMsg, sendNamed] at hw
        split_ifs at hw
        · exact absurd hw List.not_mem_nil
        · rw [List.mem_singleton.mp hw]
          exact ⟨rfl, rfl⟩
    | sendOne desName lines => exact absurd (.inl rfl) hrequest
    | sendAll lines => exact absurd (.inr (.inl rfl)) hrequest
    | sendFile recvName commands => exact absurd (.inr (.inr rfl)) hrequest
  intro enMsgType henMsgType
  rw [ofBytes_bytes_of_count htype.1, htype.2, hmsg, MsgType.ofCode?_code] at henMsgType
  rw [← Option.some.inj henMsgType]
  exact hrequest

/-- What a function of the client leaves, if nothing of it is pending or it is no dialogue. -/
theorem BanState.Silent.writing {s : BanState} (hs : s.Silent) {sent : MsgData × List ClientWrite}
    {phase : ClientPhase}
    (hchosen : ∀ count chosenUnderBan, phase = .chat count chosenUnderBan → chosenUnderBan = false)
    (hsent : (phase = .menu ∨ phase = .left) → ∀ w ∈ sent.2, w.SendsNothing) :
    (s.writing sent phase).Silent :=
  ⟨hchosen, hsent, hs.inFlight⟩

section
variable {m : Mysql} (hm : m.DocumentedClient) {u : CStr} (hu : Plain u.bytes) {s : BanState}
  (hs : s.Silent)
include hm hu hs

/-- A chat dialogue is not opened under the ban. -/
theorem silent_chooseChat {request : Request} {phase : ClientPhase} (unwritten : Unwritten)
    (hmenu : s.phase = .menu) (hpending : s.pending = [])
    (hchosen : ∀ count chosenUnderBan, phase = .chat count chosenUnderBan →
      chosenUnderBan = s.tables.banned u)
    (hnothing : ∀ msg, (dispatchMsg msg request).2 = []) :
    (chooseChat m u s request phase unwritten).Silent := by
  have hnone : ∀ w ∈ s.pending, w.SendsNothing := by
    rw [hpending]
    exact fun w hw => absurd hw List.not_mem_nil
  rw [chooseChat]
  rcases hanswer : IsBan m s.tables u unwritten with - | - | -
  · exact ⟨fun _ _ h => absurd h (by simp), fun _ => hnone, hs.inFlight⟩
  · have hfree : s.tables.banned u = false := by
      by_contra hbanned
      rcases IsBan_of_banned hm hu (eq_true_of_ne_false hbanned) unwritten with h | h
      · rw [h] at hanswer
        cases hanswer
      · rw [h] at hanswer
        cases hanswer
    apply hs.writing
    · intro count chosenUnderBan hphase
      rw [hchosen count chosenUnderBan hphase, hfree]
    · intro _ w hw
      rw [hnothing] at hw
      exact absurd hw List.not_mem_nil
  · exact ⟨fun _ _ h => absurd (hmenu.symm.trans h) (by simp), fun _ => hnone, hs.inFlight⟩

/-- At the menu. -/
theorem silent_menuInput {i : ClientInput} {s' : BanState} (hphase : s.phase = .menu)
    (hpending : s.pending = []) (h : clientInput m u s .menu i = some s') : s'.Silent := by
  cases i with
  | sendOne desName unwritten =>
      cases h
      apply silent_chooseChat hm hu hs unwritten hphase hpending
      · intro count chosenUnderBan hchat
        split_ifs at hchat
        cases hchat
        rfl
      · intro msg
        simp only [dispatchMsg, sendMsg2One, sendLines]
        split <;> rfl
  | sendAll unwritten =>
      cases h
      apply silent_chooseChat hm hu hs unwritten hphase hpending
      · intro count chosenUnderBan hchat
        cases hchat
        rfl
      · exact fun msg => rfl
  | sendFile recvName =>
      cases h
      apply hs.writing
      · intro count chosenUnderBan hchat
        split_ifs at hchat
      · intro _ w hw
        simp only [dispatchMsg, sendFile2One, ftpLoop] at hw
        split_ifs at hw
        all_goals exact absurd hw List.not_mem_nil
  | other request =>
      simp only [clientInput, Option.ite_none_right_eq_some, Option.some.injEq] at h
      obtain ⟨⟨hrequest, -⟩, rfl⟩ := h
      apply hs.writing
      · exact fun _ _ hchat => by cases hchat
      · exact fun _ w hw => sendsNothing_dispatchMsg hrequest rfl hw
  | logout =>
      cases h
      refine ⟨fun _ _ hleft => absurd hleft (by simp), fun _ => ?_, hs.inFlight⟩
      exact hs.pending (.inl hphase)
  | line pcMsg => cases h
  | command cmd => cases h

omit hm hu in
/-- In a chat dialogue, which ends with "exit" and writes nothing then. -/
theorem silent_chatInput {count : ℕ} {chosenUnderBan : Bool} {i : ClientInput} {s' : BanState}
    (hphase : s.phase = .chat count chosenUnderBan)
    (h : clientInput m u s (.chat count chosenUnderBan) i = some s') : s'.Silent := by
  cases i with
  | line pcMsg =>
      cases h
      have hchosen := hs.chosen count chosenUnderBan hphase
      apply hs.writing
      · intro count' chosenUnderBan' hchat
        split_ifs at hchat
        cases hchat
        exact hchosen
      · intro hmenu w hw
        by_cases hexit : pcMsg.val = lit "exit"
        · simp [sendLines, hexit] at hw
        · simp [hexit] at hmenu
  | _ => cases h

omit hm hu in
/-- In a file dialogue, which ends in the same way. -/
theorem silent_filesInput {i : ClientInput} {s' : BanState}
    (h : clientInput m u s .files i = some s') : s'.Silent := by
  cases i with
  | command cmd =>
      cases h
      apply hs.writing
      · intro count chosenUnderBan hchat
        split_ifs at hchat
      · intro hmenu w hw
        by_cases hexit : cmd.command.val = lit "exit"
        · simp [ftpLoop, hexit] at hw
        · simp [hexit] at hmenu
  | _ => cases h

theorem silent_clientInput {i : ClientInput} {s' : BanState} (hpending : s.pending = [])
    (h : clientInput m u s s.phase i = some s') : s'.Silent := by
  rcases hphase : s.phase with - | ⟨count, chosenUnderBan⟩ | - | -
  all_goals rw [hphase] at h
  · exact silent_menuInput hm hu hs hphase hpending h
  · exact silent_chatInput hs hphase h
  · exact silent_filesInput hs h
  · cases h

omit hm hu in
/-- A client that may write under the ban is not in a chat or file dialogue. -/
theorem sendsNothing_of_stopsWriting {w : ClientWrite} (hw : w ∈ s.pending)
    (hbanned : s.tables.banned u = true) (hstop : StopsWriting u s .write) : w.SendsNothing := by
  have hcovered := hstop hbanned
  rcases hphase : s.phase with - | ⟨count, chosenUnderBan⟩ | - | -
  · exact hs.pending (.inl hphase) w hw
  · rw [hphase, hs.chosen count chosenUnderBan hphase] at hcovered
    cases hcovered
  · rw [hphase] at hcovered
    cases hcovered
  · exact hs.pending (.inr hphase) w hw

/-- One step keeps the invariant if the client stops writing under the ban. -/
theorem silent_banStep {a : BanStep} {s' : BanState} (hstop : StopsWriting u s a)
    (h : banStep m u s a = some s') : s'.Silent := by
  cases a with
  | banOne flag username =>
      cases h
      exact ⟨hs.chosen, hs.pending, hs.inFlight⟩
  | others tables =>
      simp only [banStep, Option.ite_none_right_eq_some, Option.some.injEq] at h
      rw [← h.2]
      exact ⟨hs.chosen, hs.pending, hs.inFlight⟩
  | input i =>
      simp only [banStep, Option.ite_none_right_eq_some, List.isEmpty_iff] at h
      exact silent_clientInput hm hu hs h.1 h.2
  | write =>
      rcases hpending : s.pending with - | ⟨w, rest⟩
      · simp [banStep, hpending] at h
      · simp only [banStep, hpending, Option.some.injEq] at h
        rw [← h]
        refine ⟨hs.chosen, ?_, ?_⟩
        · intro hphase q hq
          apply hs.pending hphase
          rw [hpending]
          exact List.mem_cons_of_mem w hq
        · intro frame hframe hbanned
          rcases List.mem_append.mp hframe with hframe | hframe
          · exact hs.inFlight frame hframe hbanned
          · obtain rfl := List.mem_singleton.mp hframe
            have hw : w ∈ s.pending := hpending ▸ List.mem_cons_self
            exact sendsNothing_of_stopsWriting hs hw hbanned hstop
  | serve g_pList srcFd now =>
      have hrest : ∀ rest, rest ⊆ s.inFlight →
          ∀ frame ∈ rest, frame.underBan = true → frame.write.SendsNothing :=
        fun rest hrest frame hframe => hs.inFlight frame (hrest hframe)
      simp only [banStep] at h
      split at h
      · rename_i frame rest _ hqueue
        have hkept := hrest rest (hqueue ▸ List.subset_cons_self frame rest)
        split at h
        all_goals
          cases h
          exact ⟨hs.chosen, hs.pending, hkept⟩
      · cases h

omit hm hu in
/-- Then the server serves no message or file frame that was written under the ban. -/
theorem banRespected_of_silent (a : BanStep) : BanRespected m u s a := by
  cases a with
  | serve g_pList srcFd now =>
      intro frame hhead hbanned
      have hnothing := hs.inFlight frame (List.mem_of_mem_head? hhead) hbanned
      rw [SentFrame.turn, procClientRequest]
      split_ifs
      · trivial
      · split
        · trivial
        · rename_i htype
          exact fun hbetween => absurd hbetween (hnothing _ htype)
  | _ => trivial

end

/-! ## All runs -/

/-- A client at its menu, with nothing written yet. -/
structure BanState.Fresh (s : BanState) : Prop where
  phase : s.phase = .menu
  pending : s.pending = []
  inFlight : s.inFlight = []

theorem silent_of_fresh {s : BanState} (hs : s.Fresh) : s.Silent where
  chosen _ _ h := absurd (hs.phase.symm.trans h) (by simp)
  pending _ w hw := by
    rw [hs.pending] at hw
    exact absurd hw List.not_mem_nil
  inFlight frame hframe := by
    rw [hs.inFlight] at hframe
    exact absurd hframe List.not_mem_nil

/-- The ban takes effect in every run in which, while it is set, nothing is written in a chat
dialogue that was chosen before it, and nothing of a file. -/
theorem everyStep_banRespected {m : Mysql} (hm : m.DocumentedClient) {u : CStr}
    (hu : Plain u.bytes) {s : BanState} (hs : s.Fresh) {steps : List BanStep}
    (hstop : EveryStep (banStep m u) (StopsWriting u) s steps) :
    EveryStep (banStep m u) (BanRespected m u) s steps :=
  everyStep_of_guarded (fun _ _ _ hsilent => silent_banStep hm hu hsilent)
    (fun _ a _ hsilent _ _ => banRespected_of_silent hsilent a) (silent_of_fresh hs) hstop

/-- A frame of the three types that was written under the ban is delivered like any other: the
server's handlers ask for friendship at most. -/
theorem not_banRespected_of_allowed {m : Mysql} {u : CStr} {s : BanState} {frame : SentFrame}
    {rest : List SentFrame} {enMsgType : MsgType} {g_pList : Linklist} {srcFd : ℕ} {now : Clock}
    (hqueue : s.inFlight = frame :: rest) (hbanned : frame.underBan = true)
    (hbetween : enMsgType.BetweenFriends) {msg : MsgData}
    (hread : MsgData.ofBytes frame.write.bytes = msg) (hexit : msg.pDataStr ≠ lit "exit")
    (htype : msg.stMsgHead.enMsgType = enMsgType.code)
    (hexact : FriendLookupsExact ⟨m, s.tables, g_pList, now⟩ msg) {p : Node}
    (hp : p ∈ addressed ⟨m, s.tables, g_pList, now⟩ enMsgType msg)
    (hallowed : handlerAllows ⟨m, s.tables, g_pList, now⟩ enMsgType msg p) (hother : p.name ≠ u) :
    ¬ BanRespected m u s (.serve g_pList srcFd now) := by
  intro hrespected
  have hreaches := hrespected frame (by rw [hqueue]; rfl) hbanned
  simp only [SentFrame.turn, procClientRequest, hread, if_neg hexit, htype,
    MsgType.ofCode?_code] at hreaches
  obtain ⟨bytes, hrelay⟩ : ∃ bytes, .relay p bytes ∈ (astProcClientOptFunc enMsgType
      ⟨m, s.tables, g_pList, now⟩ msg msg.desNameStr srcFd).effects :=
    (relay_mem_iff hexact hbetween p).mpr ⟨hp, hallowed⟩
  exact hother ((hreaches hbetween).1 _ hrelay)

/-- The client of `u` when it has logged in. -/
def BanState.loggedIn (u : CStr) (tables : Tables) : BanState where
  tables := tables
  phase := .menu
  pClientData := MsgData.make .showAll u (lit "") (lit "")
  pending := []
  inFlight := []
  serverUp := true

theorem fresh_loggedIn (u : CStr) (tables : Tables) : (BanState.loggedIn u tables).Fresh :=
  ⟨rfl, rfl, rfl⟩

/-- "a" writes to its friend "b", is banned, and leaves the dialogue; the message is delivered.
Choices 4 and 5 are refused under the ban, and the one frame that is written under it asks the
server to end the friendship. -/
def bannedSteps : List BanStep :=
  [.input (.sendOne ⟨lit "b", by decide⟩ ⟨false, []⟩), .input (.line ⟨lit "hello", by decide⟩),
    .write, .banOne true (lit "a"), .input (.line ⟨lit "exit", by decide⟩),
    .serve [⟨lit "b", 5⟩] 4 .midnight, .input (.sendOne ⟨lit "b", by decide⟩ ⟨false, []⟩),
    .input (.sendAll ⟨false, []⟩), .input (.other (.delFriend ⟨lit "b", by decide⟩)), .write,
    .serve [⟨lit "b", 5⟩] 4 .midnight]

theorem everyStep_banRespected_refused :
    EveryStep (banStep Mysql.referenceClient (lit "a"))
      (BanRespected Mysql.referenceClient (lit "a"))
      (BanState.loggedIn (lit "a")
        ⟨[⟨utf8 "a", utf8 "secret", utf8 "0"⟩], [(utf8 "a", utf8 "b")], []⟩)
      bannedSteps := by
  have hstop : EveryStep (banStep Mysql.referenceClient (lit "a")) (StopsWriting (lit "a"))
      (BanState.loggedIn (lit "a")
        ⟨[⟨utf8 "a", utf8 "secret", utf8 "0"⟩], [(utf8 "a", utf8 "b")], []⟩)
      bannedSteps := by
    decide +kernel
  exact everyStep_banRespected Mysql.referenceClient_documented (by decide)
    (fresh_loggedIn _ _) hstop

/-- "a" opens a dialogue with its friend "b", is banned, and writes on. -/
theorem not_everyStep_banRespected :
    ¬ ∀ (m : Mysql) (u : CStr) (s : BanState) (steps : List BanStep), m.DocumentedClient →
      Plain u.bytes → s.Fresh → EveryStep (banStep m u) (BanRespected m u) s steps := by
  intro h
  have hruns := h Mysql.referenceClient (lit "a")
    (BanState.loggedIn (lit "a")
      ⟨[⟨utf8 "a", utf8 "secret", utf8 "0"⟩], [(utf8 "a", utf8 "b")], []⟩)
    [.input (.sendOne ⟨lit "b", by decide⟩ ⟨false, []⟩), .banOne true (lit "a"),
      .input (.line ⟨lit "hello", by decide⟩), .write, .serve [⟨lit "b", 5⟩] 4 ⟨0, 0, 0⟩]
    Mysql.referenceClient_documented (by decide) (fresh_loggedIn _ _)
  exact absurd hruns (by decide +kernel)

end ChatRoom
