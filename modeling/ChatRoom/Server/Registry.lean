import ChatRoom.Server.Sessions

/-!
# The list as a registry

Whole connects and disconnects, one after the other.  The list should then hold one node
for each open session; `delNode` removes by name, and two sessions may have the same one.
-/

namespace ChatRoom

open CString StepSystem

/-- A connect up to the inserted node, or a disconnect up to the removed one. -/
inductive Visit where
  | connect (clientName : CStr) (cFd : ℕ)
  | disconnect (session : Node)

/-- The atomic steps of a visit, taken together. -/
def Visit.steps : Visit → List SessionStep
  | connect clientName cFd => [.accept clientName cFd, .insert]
  | disconnect session => [.close session, .delete session.name]

def visitStep (s : Sessions) (visit : Visit) : Option Sessions :=
  run sessionStep s visit.steps

/-- The list holds exactly one node for each open session, and no other node. -/
structure Sessions.RegistryExact (s : Sessions) : Prop where
  listed : ∀ q ∈ s.opened, s.g_pList.count q = 1
  alive : ∀ p ∈ s.g_pList, p ∈ s.opened

/-- The session that ends is the newest of those open under its user name. -/
def DisconnectsNewest (s : Sessions) : Visit → Prop
  | .connect _ _ => True
  | .disconnect session => s.running.find? (·.name = session.name) = some session

/-- Between visits: no connection is half accepted, the list is the list of running
sessions, and their descriptors differ. -/
structure Sessions.Settled (s : Sessions) : Prop where
  accepted : s.accepted = none
  g_pList : s.g_pList = s.running
  nodup : (s.running.map Node.sfd).Nodup

theorem settled_init : Sessions.init.Settled := ⟨rfl, rfl, List.nodup_nil⟩

theorem Sessions.Settled.opened {s : Sessions} (hs : s.Settled) : s.opened = s.running := by
  simp [Sessions.opened, hs.accepted]

theorem Sessions.Settled.nodup_running {s : Sessions} (hs : s.Settled) : s.running.Nodup :=
  hs.nodup.of_map

theorem registryExact_of_settled {s : Sessions} (hs : s.Settled) : s.RegistryExact where
  listed q hq := by
    rw [hs.opened] at hq
    rw [hs.g_pList]
    exact List.count_eq_one_of_mem hs.nodup_running hq
  alive p hp := by
    rw [hs.opened, ← hs.g_pList]
    exact hp

theorem visit_connect {s s' : Sessions} {clientName : CStr} {cFd : ℕ}
    (h : visitStep s (.connect clientName cFd) = some s') :
    cFd ∉ s.opened.map Node.sfd ∧
      s' = ⟨⟨clientName, cFd⟩ :: s.g_pList, none, ⟨clientName, cFd⟩ :: s.running,
        s.closed⟩ := by
  simp only [visitStep, Visit.steps, run_cons, run_nil, Option.bind_eq_some_iff] at h
  obtain ⟨mid, hmid, last, hlast, hs'⟩ := h
  obtain ⟨-, hfree, rfl⟩ := step_accept hmid
  obtain ⟨p, hp, rfl⟩ := step_insert hlast
  cases hp
  exact ⟨hfree, (Option.some.inj hs').symm⟩

theorem visit_disconnect {s s' : Sessions} {session : Node}
    (h : visitStep s (.disconnect session) = some s') :
    session ∈ s.running ∧
      s' = ⟨delNode s.g_pList session.name, s.accepted, s.running.erase session,
        s.closed⟩ := by
  simp only [visitStep, Visit.steps, run_cons, run_nil, Option.bind_eq_some_iff] at h
  obtain ⟨mid, hmid, last, hlast, hs'⟩ := h
  obtain ⟨hmem, rfl⟩ := step_close hmid
  obtain rfl := step_delete hlast
  rw [List.erase_cons_head] at hs'
  exact ⟨hmem, (Option.some.inj hs').symm⟩

theorem settled_connect {s s' : Sessions} {clientName : CStr} {cFd : ℕ} (hs : s.Settled)
    (h : visitStep s (.connect clientName cFd) = some s') : s'.Settled := by
  obtain ⟨hfree, rfl⟩ := visit_connect h
  rw [hs.opened] at hfree
  exact ⟨rfl, by rw [hs.g_pList], List.nodup_cons.mpr ⟨hfree, hs.nodup⟩⟩

theorem settled_disconnect {s s' : Sessions} {session : Node} (hs : s.Settled)
    (hnewest : DisconnectsNewest s (.disconnect session))
    (h : visitStep s (.disconnect session) = some s') : s'.Settled := by
  obtain ⟨-, rfl⟩ := visit_disconnect h
  have hfound : searchName s.g_pList session.name = some session := by
    rw [searchName_eq_find?, hs.g_pList]
    exact hnewest
  refine ⟨hs.accepted, ?_, hs.nodup.sublist (List.erase_sublist.map Node.sfd)⟩
  rw [delNode_eq_erase hfound, hs.g_pList]

theorem settled_visit (s : Sessions) (visit : Visit) (s' : Sessions) (hs : s.Settled)
    (hnewest : DisconnectsNewest s visit) (h : visitStep s visit = some s') :
    s'.Settled := by
  cases visit with
  | connect clientName cFd => exact settled_connect hs h
  | disconnect session => exact settled_disconnect hs hnewest h

/-- When an older session of a name ends, the node of a newer one is removed: the
ended session stays listed. -/
theorem newest_of_registryExact {s s' : Sessions} {session : Node} (hs : s.Settled)
    (h : visitStep s (.disconnect session) = some s') (hexact : s'.RegistryExact) :
    DisconnectsNewest s (.disconnect session) := by
  obtain ⟨hmem, rfl⟩ := visit_disconnect h
  obtain ⟨newest, hfind⟩ : ∃ p, s.running.find? (·.name = session.name) = some p :=
    Option.isSome_iff_exists.mp (List.find?_isSome.mpr ⟨session, hmem, by simp⟩)
  have hfound : searchName s.g_pList session.name = some newest := by
    rw [searchName_eq_find?, hs.g_pList, hfind]
  by_cases heq : newest = session
  · rw [DisconnectsNewest, hfind, heq]
  · have hlisted : session ∈ delNode s.g_pList session.name := by
      rw [delNode_eq_erase hfound, hs.g_pList]
      exact (List.mem_erase_of_ne (Ne.symm heq)).mpr hmem
    have hopened := hexact.alive session hlisted
    simp only [Sessions.opened, hs.accepted, Option.toList_none, List.nil_append] at hopened
    exact absurd hopened hs.nodup_running.not_mem_erase

theorem registryExact_iff_newest (s : Sessions) (visit : Visit) (s' : Sessions)
    (hs : s.Settled) (h : visitStep s visit = some s') :
    s'.RegistryExact ↔ DisconnectsNewest s visit := by
  constructor
  · intro hexact
    cases visit with
    | connect clientName cFd => trivial
    | disconnect session => exact newest_of_registryExact hs h hexact
  · intro hnewest
    exact registryExact_of_settled (settled_visit s visit s' hs hnewest h)

/-- In every run of connects and disconnects the list is the set of open sessions in
every state, exactly if each session that ends is the newest one of its user. -/
theorem everyState_registryExact_iff (visits : List Visit) :
    EveryState visitStep Sessions.RegistryExact Sessions.init visits ↔
      EveryStep visitStep DisconnectsNewest Sessions.init visits :=
  everyState_iff_everyStep settled_visit registryExact_iff_newest settled_init
    (registryExact_of_settled settled_init)

/-- Two sessions of one user, and the older one ends first. -/
theorem not_everyState_registryExact :
    ¬ ∀ visits, EveryState visitStep Sessions.RegistryExact Sessions.init visits := by
  intro h
  have hrun := (h [.connect (lit "a") 5, .connect (lit "a") 6,
    .disconnect ⟨lit "a", 5⟩]).last rfl
  exact absurd (hrun.alive ⟨lit "a", 5⟩ (by decide)) (by decide)

end ChatRoom
