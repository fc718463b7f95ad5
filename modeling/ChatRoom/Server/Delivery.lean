import ChatRoom.Server.Sessions

/-!
# Where relays arrive

A handler writes to the descriptor of the node that it finds.  Between the `close` of a
session and the `delNode` of its thread the node is still listed, while the descriptor is
closed or belongs to a later connection.
-/

namespace ChatRoom

open CString StepSystem

/-- `Q` holds of every relay to one user that the step writes, and of the destination. -/
def EveryRelay (Q : Sessions → Effect → CStr → Prop) (s : Sessions) : SessionStep → Prop
  | .handle session mysql tables now pcMsgBuf =>
      ∀ enMsgType, MsgType.ofCode? pcMsgBuf.stMsgHead.enMsgType = some enMsgType →
        enMsgType.ToOne → ∀ pDestNode bytes,
          .relay pDestNode bytes ∈ s.handleEffects session mysql tables now pcMsgBuf →
            Q s (.relay pDestNode bytes) pcMsgBuf.desNameStr
  | _ => True

/-- Every relay is written to a descriptor that belongs to a session opened under the
name of the destination. -/
def DeliveredToDestination : Sessions → SessionStep → Prop :=
  EveryRelay fun s e pcDesName =>
    s.receivers e ≠ [] ∧ ∀ q ∈ s.receivers e, q.name = pcDesName

/-- No relay is written to a descriptor that belongs to a session of another user. -/
def NoOtherUserReached : Sessions → SessionStep → Prop :=
  EveryRelay fun s e pcDesName => ∀ q ∈ s.receivers e, q.name = pcDesName

section
variable {s : Sessions} {session : Node} {mysql : Mysql} {tables : Tables} {now : Clock}
  {pcMsgBuf : MsgData} {enMsgType : MsgType}

/-- A relay to one user goes to the node that the search finds, by a handler that gets
as far as its search. -/
theorem found_of_relay
    (hcode : MsgType.ofCode? pcMsgBuf.stMsgHead.enMsgType = some enMsgType)
    (htoOne : enMsgType.ToOne) {pDestNode : Node} {bytes : Bytes}
    (hrelay : .relay pDestNode bytes ∈ s.handleEffects session mysql tables now pcMsgBuf) :
    pcMsgBuf.pDataStr ≠ lit "exit" ∧
      searchesList ⟨mysql, tables, s.g_pList, now⟩ enMsgType pcMsgBuf pcMsgBuf.desNameStr ∧
        searchName s.g_pList pcMsgBuf.desNameStr = some pDestNode := by
  have hall : enMsgType ≠ .sendAll := by
    rcases htoOne with rfl | rfl | rfl <;> decide
  simp only [Sessions.handleEffects, procClientRequest, hcode] at hrelay
  split at hrelay
  · exact absurd hrelay (by simp [LoopTurn.effects])
  · rename_i hexit
    exact ⟨hexit, searchesList_of_relay htoOne hrelay, searchName_of_relay hall hrelay⟩

end

/-! ## Descriptors -/

/-- Open descriptors differ, and a node whose descriptor is open carries the user
name of the session that owns it. -/
structure Sessions.NodesOwned (s : Sessions) : Prop where
  nodup : (s.opened.map Node.sfd).Nodup
  owner : ∀ p ∈ s.g_pList, ∀ q ∈ s.opened, q.sfd = p.sfd → q.name = p.name

theorem nodesOwned_init : Sessions.init.NodesOwned :=
  ⟨List.nodup_nil, fun _ hp => absurd hp List.not_mem_nil⟩

/-- `accept` returned a descriptor that no node of another user holds. -/
def AcceptsUnlisted (s : Sessions) : SessionStep → Prop
  | .accept clientName cFd => ∀ p ∈ s.g_pList, p.sfd = cFd → p.name = clientName
  | _ => True

/-- The owners of the listed descriptors after one more step. -/
theorem owner_step {s s' : Sessions} {a : SessionStep} (hs : s.NodesOwned)
    (hguard : AcceptsUnlisted s a) (h : sessionStep s a = some s') :
    ∀ p ∈ s'.g_pList, ∀ q ∈ s'.opened, q.sfd = p.sfd → q.name = p.name := by
  intro p hp q hq hsfd
  cases a with
  | accept clientName cFd =>
      rw [opened_accept h] at hq
      obtain ⟨-, -, rfl⟩ := step_accept h
      rcases List.mem_cons.mp hq with rfl | hq
      · exact (hguard p hp hsfd.symm).symm
      · exact hs.owner p hp q hq hsfd
  | insert =>
      rw [opened_insert h] at hq
      obtain ⟨new, hnew, rfl⟩ := step_insert h
      rcases List.mem_cons.mp hp with rfl | hp
      -- the inserted node is the session that was accepted
      · have hopened : new ∈ s.opened := by simp [Sessions.opened, hnew]
        rw [List.inj_on_of_nodup_map hs.nodup hq hopened hsfd]
      · exact hs.owner p hp q hq hsfd
  | close session =>
      have hq' := (opened_close h).subset hq
      obtain ⟨-, rfl⟩ := step_close h
      exact hs.owner p hp q hq' hsfd
  | delete clientName =>
      obtain rfl := step_delete h
      exact hs.owner p ((delNode_sublist _ _).subset hp) q hq hsfd
  | handle session mysql tables now pcMsgBuf =>
      obtain rfl := step_handle h
      exact hs.owner p hp q hq hsfd

theorem nodesOwned_step (s : Sessions) (a : SessionStep) (s' : Sessions)
    (hs : s.NodesOwned) (hguard : AcceptsUnlisted s a) (h : sessionStep s a = some s') :
    s'.NodesOwned :=
  ⟨nodup_fds_step hs.nodup h, owner_step hs hguard h⟩

theorem noOtherUserReached_of_nodesOwned {s : Sessions} (hs : s.NodesOwned)
    (a : SessionStep) : NoOtherUserReached s a := by
  cases a with
  | handle session mysql tables now pcMsgBuf =>
      intro enMsgType hcode htoOne pDestNode bytes hrelay q hq
      obtain ⟨hq, hsfd⟩ := List.mem_filter.mp hq
      obtain ⟨-, -, hfound⟩ := found_of_relay hcode htoOne hrelay
      rw [← name_of_searchName hfound]
      exact hs.owner pDestNode (mem_of_searchName hfound) q hq (of_decide_eq_true hsfd)
  | _ => trivial

/-- If no `accept` returns a descriptor that a node of another user still holds, no other
user is reached, in whatever order the threads take their steps and whatever the names. -/
theorem everyStep_noOtherUserReached (steps : List SessionStep)
    (hguard : EveryStep sessionStep AcceptsUnlisted Sessions.init steps) :
    EveryStep sessionStep NoOtherUserReached Sessions.init steps :=
  everyStep_of_guarded nodesOwned_step
    (fun _ a _ hs _ _ => noOtherUserReached_of_nodesOwned hs a) nodesOwned_init hguard

/-! ## Users of different names -/

/-- A connection is accepted under a name that no open session has. -/
def NamesDistinct (s : Sessions) : SessionStep → Prop
  | .accept clientName _ => ∀ q ∈ s.opened, q.name ≠ clientName
  | _ => True

/-- While a thread is between its `close` and its `delNode`, no handler searches the list
for the thread's user, and no node of that name is inserted. -/
def CleanupUnobserved (s : Sessions) : SessionStep → Prop
  | .insert => ∀ p ∈ s.accepted, p.name ∉ s.closed
  | .handle _ mysql tables now pcMsgBuf =>
      pcMsgBuf.pDataStr ≠ lit "exit" →
        ∀ enMsgType ∈ MsgType.ofCode? pcMsgBuf.stMsgHead.enMsgType,
          searchesList ⟨mysql, tables, s.g_pList, now⟩ enMsgType pcMsgBuf
              pcMsgBuf.desNameStr →
            pcMsgBuf.desNameStr ∉ s.closed
  | _ => True

instance (s : Sessions) : (a : SessionStep) → Decidable (NamesDistinct s a)
  | .accept clientName _ => inferInstanceAs (Decidable (∀ q ∈ s.opened, q.name ≠ clientName))
  | .insert | .close _ | .delete _ | .handle .. => isTrue trivial

instance (s : Sessions) : (a : SessionStep) → Decidable (CleanupUnobserved s a)
  | .insert => inferInstanceAs (Decidable (∀ p ∈ s.accepted, p.name ∉ s.closed))
  | .handle _ mysql tables now pcMsgBuf =>
      inferInstanceAs (Decidable (pcMsgBuf.pDataStr ≠ lit "exit" →
        ∀ enMsgType ∈ MsgType.ofCode? pcMsgBuf.stMsgHead.enMsgType,
          searchesList ⟨mysql, tables, s.g_pList, now⟩ enMsgType pcMsgBuf
              pcMsgBuf.desNameStr →
            pcMsgBuf.desNameStr ∉ s.closed))
  | .accept .. | .close _ | .delete _ => isTrue trivial

/-- Open sessions and threads that still have to call `delNode` all have different names,
and a node of the list stands for one or the other. -/
structure Sessions.Tidy (s : Sessions) : Prop where
  fds : (s.opened.map Node.sfd).Nodup
  names : (s.opened.map Node.name).Nodup
  closed : s.closed.Nodup
  running : ∀ p ∈ s.running, p.name ∉ s.closed
  listed : (s.g_pList.map Node.name).Nodup
  live : ∀ p ∈ s.g_pList, p ∈ s.running ∨ p.name ∈ s.closed

theorem tidy_init : Sessions.init.Tidy where
  fds := List.nodup_nil
  names := List.nodup_nil
  closed := List.nodup_nil
  running _ hp := absurd hp List.not_mem_nil
  listed := List.nodup_nil
  live _ hp := absurd hp List.not_mem_nil

section
variable {s s' : Sessions}

theorem tidy_accept (hs : s.Tidy) {clientName : CStr} {cFd : ℕ}
    (hnames : NamesDistinct s (.accept clientName cFd))
    (h : sessionStep s (.accept clientName cFd) = some s') : s'.Tidy := by
  have hfds := nodup_fds_step hs.fds h
  have hopened := opened_accept h
  have hnew : clientName ∉ s.opened.map Node.name := by
    intro hmem
    obtain ⟨q, hq, hname⟩ := List.mem_map.mp hmem
    exact hnames q hq hname
  obtain ⟨-, -, rfl⟩ := step_accept h
  refine ⟨hfds, ?_, hs.closed, hs.running, hs.listed, hs.live⟩
  rw [hopened]
  exact List.nodup_cons.mpr ⟨hnew, hs.names⟩

theorem tidy_insert (hs : s.Tidy) (hguard : CleanupUnobserved s .insert)
    (h : sessionStep s .insert = some s') : s'.Tidy := by
  have hfds := nodup_fds_step hs.fds h
  have hopened := opened_insert h
  obtain ⟨p, hp, rfl⟩ := step_insert h
  have hclosing : p.name ∉ s.closed := hguard p hp
  have hnames : ((p :: s.running).map Node.name).Nodup := by
    have hall := hs.names
    rwa [Sessions.opened, hp] at hall
  have hnew : p.name ∉ s.g_pList.map Node.name := by
    intro hmem
    obtain ⟨q, hq, hname⟩ := List.mem_map.mp hmem
    rcases hs.live q hq with hrun | hclosed
    · exact (List.nodup_cons.mp hnames).1 (hname ▸ List.mem_map_of_mem hrun)
    · exact hclosing (hname ▸ hclosed)
  refine ⟨hfds, hopened ▸ hs.names, hs.closed, ?_, ?_, ?_⟩
  · intro q hq
    rcases List.mem_cons.mp hq with rfl | hq
    · exact hclosing
    · exact hs.running q hq
  · exact List.nodup_cons.mpr ⟨hnew, hs.listed⟩
  · intro q hq
    rcases List.mem_cons.mp hq with rfl | hq
    · exact .inl List.mem_cons_self
    · exact (hs.live q hq).imp_left (List.mem_cons_of_mem p)

theorem tidy_close (hs : s.Tidy) {session : Node}
    (h : sessionStep s (.close session) = some s') : s'.Tidy := by
  have hfds := nodup_fds_step hs.fds h
  have hopened := opened_close h
  obtain ⟨hsession, rfl⟩ := step_close h
  have hrunning : (s.running.map Node.name).Nodup :=
    hs.names.sublist ((List.sublist_append_right _ _).map Node.name)
  refine ⟨hfds, hs.names.sublist (hopened.map Node.name),
    List.nodup_cons.mpr ⟨hs.running session hsession, hs.closed⟩, ?_, hs.listed, ?_⟩
  · intro p hp hclosed
    have hp' : p ∈ s.running := List.mem_of_mem_erase hp
    rcases List.mem_cons.mp hclosed with hname | hclosed
    -- of this name only the closed session was running
    · obtain rfl := List.inj_on_of_nodup_map hrunning hp' hsession hname
      exact hrunning.of_map.not_mem_erase hp
    · exact hs.running p hp' hclosed
  · intro p hp
    rcases hs.live p hp with hrun | hclosed
    · by_cases heq : p = session
      · rw [heq]
        exact .inr List.mem_cons_self
      · exact .inl ((List.mem_erase_of_ne heq).mpr hrun)
    · exact .inr (List.mem_cons_of_mem _ hclosed)

theorem tidy_delete (hs : s.Tidy) {clientName : CStr}
    (h : sessionStep s (.delete clientName) = some s') : s'.Tidy := by
  obtain rfl := step_delete h
  have hsub := delNode_sublist s.g_pList clientName
  refine ⟨hs.fds, hs.names, hs.closed.sublist List.erase_sublist, ?_,
    hs.listed.sublist (hsub.map Node.name), ?_⟩
  · exact fun p hp hclosed => hs.running p hp (List.mem_of_mem_erase hclosed)
  · intro p hp
    have hname := name_ne_of_mem_delNode hs.listed hp
    exact (hs.live p (hsub.subset hp)).imp_right (List.mem_erase_of_ne hname).mpr

theorem tidy_step (hs : s.Tidy) {a : SessionStep} (hnames : NamesDistinct s a)
    (hguard : CleanupUnobserved s a) (h : sessionStep s a = some s') : s'.Tidy := by
  cases a with
  | accept clientName cFd => exact tidy_accept hs hnames h
  | insert => exact tidy_insert hs hguard h
  | close session => exact tidy_close hs h
  | delete clientName => exact tidy_delete hs h
  | handle session mysql tables now pcMsgBuf =>
      obtain rfl := step_handle h
      exact hs

/-- While nobody is in between, the node that a handler finds stands for a running
session, and its descriptor belongs to that session alone. -/
theorem delivered_of_tidy (hs : s.Tidy) {a : SessionStep} (hguard : CleanupUnobserved s a) :
    DeliveredToDestination s a := by
  cases a with
  | handle session mysql tables now pcMsgBuf =>
      intro enMsgType hcode htoOne pDestNode bytes hrelay
      obtain ⟨hexit, hsearch, hfound⟩ := found_of_relay hcode htoOne hrelay
      have hname := name_of_searchName hfound
      have hrun : pDestNode ∈ s.running := by
        rcases hs.live pDestNode (mem_of_searchName hfound) with hrun | hclosed
        · exact hrun
        · exact absurd (hname ▸ hclosed) (hguard hexit enMsgType hcode hsearch)
      have hopened : pDestNode ∈ s.opened := List.mem_append_right _ hrun
      constructor
      · exact List.ne_nil_of_mem (List.mem_filter.mpr ⟨hopened, by simp [Effect.fd]⟩)
      · intro q hq
        obtain ⟨hq, hsfd⟩ := List.mem_filter.mp hq
        obtain rfl := List.inj_on_of_nodup_map hs.fds hq hopened (of_decide_eq_true hsfd)
        exact hname
  | _ => trivial

end

/-- With different user names, every frame is delivered to its destination, in whatever
order the threads take their steps, if no search falls between the `close` and the
`delNode` of the thread that served the destination. -/
theorem everyStep_delivered (steps : List SessionStep)
    (hnames : EveryStep sessionStep NamesDistinct Sessions.init steps)
    (hguard : EveryStep sessionStep CleanupUnobserved Sessions.init steps) :
    EveryStep sessionStep DeliveredToDestination Sessions.init steps :=
  everyStep_of_guarded (fun _ _ _ hs hg h => tidy_step hs hg.1 hg.2 h)
    (fun _ _ _ hs hg _ => delivered_of_tidy hs hg.2) tidy_init (hnames.and hguard)

/-- "c" connects on the descriptor that "b" has closed and is sent a file, all before the
node of "b" is removed. -/
theorem everyStep_delivered_reused :
    EveryStep sessionStep DeliveredToDestination Sessions.init
      [.accept (lit "b") 5, .insert, .accept (lit "a") 6, .insert, .close ⟨lit "b", 5⟩,
        .accept (lit "c") 5, .insert, .handle ⟨lit "a", 6⟩ Mysql.reference ⟨[], [], []⟩
          ⟨0, 0, 0⟩ (MsgData.make .sendFile (lit "a") (lit "c") (lit "data")),
        .delete (lit "b")] :=
  everyStep_delivered _ (by decide) (by decide +kernel)

/-- Conversely, a file for a user who is listed but has no open session is delivered to
nobody or to another user. -/
theorem not_delivered_of_closing {s : Sessions} {p : Node} {name : CStr}
    (hfound : searchName s.g_pList name = some p) (hnone : ∀ q ∈ s.opened, q.name ≠ name)
    (session : Node) (mysql : Mysql) (tables : Tables) (now : Clock) {file : MsgData}
    (hfile : file.stMsgHead.enMsgType = MsgType.sendFile.code)
    (hdes : file.desNameStr = name) (hexit : file.pDataStr ≠ lit "exit") :
    ¬ DeliveredToDestination s (.handle session mysql tables now file) := by
  intro h
  have hrelay : .relay p file.toBytes ∈
      s.handleEffects session mysql tables now file := by
    rw [searchName_eq_find?] at hfound
    simp [Sessions.handleEffects, procClientRequest, hexit, hfile, LoopTurn.effects,
      astProcClientOptFunc, procSendFile2One, hdes, hfound, returning]
  obtain ⟨hreached, hnames⟩ := h .sendFile (by rw [hfile, MsgType.ofCode?_code])
    (.inr (.inr rfl)) p file.toBytes hrelay
  obtain ⟨q, hq⟩ := List.exists_mem_of_ne_nil _ hreached
  exact hnone q (List.mem_of_mem_filter hq) ((hnames q hq).trans hdes)

/-- The descriptor of "b" goes to "c" before the node of "b" is removed, and a file
that "a" sends to "b" arrives at "c". -/
theorem not_everyStep_delivered :
    ¬ ∀ steps, EveryStep sessionStep NamesDistinct Sessions.init steps →
      EveryStep sessionStep DeliveredToDestination Sessions.init steps := by
  intro h
  let file := MsgData.make .sendFile (lit "a") (lit "b") (lit "data")
  let closing : Sessions :=
    ⟨[⟨lit "a", 6⟩, ⟨lit "b", 5⟩], some ⟨lit "c", 5⟩, [⟨lit "a", 6⟩], [lit "b"]⟩
  let before : List SessionStep := [.accept (lit "b") 5, .insert, .accept (lit "a") 6, .insert,
    .close ⟨lit "b", 5⟩, .accept (lit "c") 5]
  let handle : SessionStep :=
    .handle ⟨lit "a", 6⟩ Mysql.reference ⟨[], [], []⟩ ⟨0, 0, 0⟩ file
  have hrun : run sessionStep Sessions.init before = some closing := by rfl
  have hdelivered := (h (before ++ [handle]) (by decide +kernel)).of_run_append hrun
  have hfound : searchName closing.g_pList (lit "b") = some ⟨lit "b", 5⟩ := by decide
  have hnone : ∀ q ∈ closing.opened, q.name ≠ lit "b" := by decide
  exact not_delivered_of_closing hfound hnone _ _ _ _ rfl (by decide +kernel)
    (by decide +kernel) (hdelivered closing rfl).1

end ChatRoom
