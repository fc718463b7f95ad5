import ChatRoom.Server.ThreadPool

/-!
# Can the pool get stuck?

A worker takes one job and leaves, a signal is sent only for a job that is put into an empty
queue, and a producer that waits tests its own copy of the number of jobs.  So jobs may be left
without a worker, and a producer that has waited once waits for ever.
-/

namespace ChatRoom

open LinkedQueue StepSystem

variable {β : Type}

/-- The worker is on its way to a job. -/
def Worker.willTake : Worker → Bool
  | ready | woken => true
  | asleep | finished => false

/-- While there are jobs some worker is on its way, and no producer that waits has to wait on
after a job was taken. -/
structure PoolState.Live (s : PoolState β) : Prop where
  served : s.pool.queue_head ≠ none → s.workers.any Worker.willTake = true
  freed : ∀ p ∈ s.producers, p.jobTaken = true → mustWait p.queue_num false = false

/-- A job is put into an empty queue only while some worker is left; a job is taken only while no
producer waits, and only if it is the last or another worker is on its way. -/
def KeepsUp (s : PoolState β) : PoolStep β → Prop
  | .add _ _ _ => s.pool.queue_num = 0 → s.workers.any (· ≠ .finished) = true
  | .work i => s.pool.queue_num ≠ 0 → s.producers = [] ∧
      (s.pool.queue_num = 1 ∨ (s.workers.eraseIdx i).any Worker.willTake = true)
  | _ => True

instance (s : PoolState β) : (a : PoolStep β) → Decidable (KeepsUp s a)
  | .add _ _ _ => inferInstanceAs (Decidable (_ → _))
  | .work _ => inferInstanceAs (Decidable (_ → _))
  | .callocFails | .retest _ _ | .wake _ => isTrue trivial

/-! ## Signals and workers -/

/-- After a signal a worker is on its way if any worker is left. -/
theorem any_willTake_signal {workers workers' : List Worker} {signalled : Option ℕ}
    (h : signal workers signalled = some workers') :
    workers'.any Worker.willTake = true ↔ workers.any (· ≠ .finished) = true := by
  simp only [List.any_eq_true, decide_eq_true_eq]
  rcases signalled with - | i
  · simp only [signal, Option.ite_none_left_eq_some, Option.some.injEq] at h
    obtain ⟨hawake, rfl⟩ := h
    refine exists_congr fun w => and_congr_right fun hw => ?_
    cases w with
    | asleep => exact absurd hw hawake
    | ready | woken | finished => simp [Worker.willTake]
  · simp only [signal, Option.ite_none_right_eq_some, Option.some.injEq] at h
    obtain ⟨hasleep, rfl⟩ := h
    obtain ⟨hi, -⟩ := List.getElem?_eq_some_iff.mp hasleep
    have hwoken : .woken ∈ workers.set i .woken := List.mem_set hi _
    have hleft : .asleep ∈ workers := List.mem_of_getElem? hasleep
    exact iff_of_true ⟨.woken, hwoken, rfl⟩ ⟨.asleep, hleft, by decide⟩

/-- When one worker has finished, the others may still be on their way. -/
theorem any_willTake_set_finished (workers : List Worker) (i : ℕ) :
    (workers.set i .finished).any Worker.willTake = true ↔
      (workers.eraseIdx i).any Worker.willTake = true := by
  induction workers generalizing i with
  | nil => simp
  | cons w workers ih =>
      rcases i with - | i
      · simp [Worker.willTake]
      · simp only [List.set_cons_succ, List.eraseIdx_cons_succ, List.any_cons, Bool.or_eq_true, ih]

/-! ## The invariant -/

/-- Where a job is in the queue a worker is on its way, and producers wait only behind jobs that
nobody takes. -/
structure PoolState.KeptUp (s : PoolState β) (cells : List ℕ) : Prop where
  holds : s.Holds cells
  behind : s.producers ≠ [] → cells ≠ []
  waiting : ∀ p ∈ s.producers, p.queue_num = maxQueue ∧ p.jobTaken = false
  served : cells ≠ [] → s.workers.any Worker.willTake = true

theorem PoolState.KeptUp.live {s : PoolState β} {cells : List ℕ} (h : s.KeptUp cells) :
    s.Live := by
  refine ⟨fun hhead => h.served fun hnil => hhead ?_, fun p hp htaken => ?_⟩
  · exact h.holds.queue.head_eq_none_iff.mpr hnil
  · exact absurd htaken (by simp [(h.waiting p hp).2])

/-- A queue whose number is not 0 has a job in it. -/
theorem PoolState.KeptUp.cells_ne_nil {s : PoolState β} {cells : List ℕ} (h : s.KeptUp cells)
    (hnum : s.pool.queue_num ≠ 0) : cells ≠ [] := by
  rintro rfl
  have hnobody : s.producers = [] := by
    by_contra hne
    exact h.behind hne rfl
  have hcount := h.holds.num
  rw [hnobody] at hcount
  exact hnum hcount

/-- While nobody waits, taking a job leaves none exactly if it is the only one. -/
theorem tail_eq_nil_iff {s : PoolState β} {cells : List ℕ} (h : s.Holds cells)
    (hnobody : s.producers = []) (hnum : s.pool.queue_num ≠ 0) :
    cells.tail = [] ↔ s.pool.queue_num = 1 := by
  have hcount := h.num
  rw [hnobody, List.length_nil, Nat.add_zero] at hcount
  rw [← List.length_eq_zero_iff, List.length_tail]
  omega

theorem keptUp_add {s s' : PoolState β} {cells : List ℕ} (h : s.KeptUp cells) {job : β}
    {pJob : ℕ} {signalled : Option ℕ}
    (hkeeps : s.pool.queue_num = 0 → s.workers.any (· ≠ .finished) = true)
    (hstep : poolStep s (.add job pJob signalled) = some s') : ∃ cells', s'.KeptUp cells' := by
  obtain ⟨-, hadd⟩ := holds_add h.holds h.behind hstep
  split_ifs at hadd with hfull hzero
  · obtain ⟨hholds, hproducers, hworkers⟩ := hadd
    have hne : cells ≠ [] := h.cells_ne_nil (by rw [hfull]; decide)
    refine ⟨cells, hholds, fun _ => hne, ?_, ?_⟩
    · intro p hp
      rw [hproducers] at hp
      rcases List.mem_append.mp hp with hp | hp
      · exact h.waiting p hp
      · rw [List.mem_singleton.mp hp]
        exact ⟨rfl, rfl⟩
    · rw [hworkers]
      exact h.served
  · obtain ⟨hholds, hproducers, -, hsignal⟩ := hadd
    refine ⟨cells ++ [pJob], hholds, fun _ => by simp, ?_, fun _ => ?_⟩
    · rw [hproducers]
      exact h.waiting
    · exact (any_willTake_signal hsignal).mpr (hkeeps hzero)
  · obtain ⟨hholds, hproducers, -, hworkers⟩ := hadd
    refine ⟨cells ++ [pJob], hholds, fun _ => by simp, ?_, fun _ => ?_⟩
    · rw [hproducers]
      exact h.waiting
    · rw [hworkers]
      exact h.served (h.cells_ne_nil hzero)

theorem keptUp_work {s s' : PoolState β} {cells : List ℕ} (h : s.KeptUp cells) {i : ℕ}
    (hkeeps : s.pool.queue_num ≠ 0 → s.producers = [] ∧
      (s.pool.queue_num = 1 ∨ (s.workers.eraseIdx i).any Worker.willTake = true))
    (hstep : poolStep s (.work i) = some s') : ∃ cells', s'.KeptUp cells' := by
  have hwork := holds_work h.holds h.behind hstep
  split_ifs at hwork with hzero
  · obtain ⟨hnil, hnobody⟩ := h.holds.empty hzero
    rw [hwork]
    exact ⟨cells, h.holds.setWorkers _, h.behind, h.waiting, fun hne => absurd hnil hne⟩
  · obtain ⟨hnobody, hothers⟩ := hkeeps hzero
    obtain ⟨hholds, -, -, hproducers, hworkers⟩ := hwork
    rw [hnobody, List.map_nil] at hproducers
    refine ⟨cells.tail, hholds, fun hne => absurd hproducers hne, ?_, fun hne => ?_⟩
    · simp [hproducers]
    · have hmore : s.pool.queue_num ≠ 1 := fun hone =>
        hne ((tail_eq_nil_iff h.holds hnobody hzero).mpr hone)
      rw [hworkers, any_willTake_set_finished]
      exact hothers.resolve_left hmore

/-- A step that keeps up keeps the invariant. -/
theorem keptUp_poolStep (s : PoolState β) (a : PoolStep β) (s' : PoolState β)
    (h : ∃ cells, s.KeptUp cells) (hkeeps : KeepsUp s a) (hstep : poolStep s a = some s') :
    ∃ cells, s'.KeptUp cells := by
  obtain ⟨cells, h⟩ := h
  have hruns : ¬ s.crashed = true := by simp [h.holds.running]
  cases a with
  | add job pJob signalled => exact keptUp_add h hkeeps hstep
  | callocFails =>
      simp only [poolStep, if_neg hruns, Option.some.injEq] at hstep
      exact ⟨cells, hstep ▸ h⟩
  | retest k signalled =>
      simp only [poolStep, if_neg hruns] at hstep
      split at hstep
      · cases hstep
      · -- the producer tests its own copy of the number, which has not changed
        rename_i p hp
        have hfull := (h.waiting p (List.mem_of_getElem? hp)).1
        have hwaits : mustWait p.queue_num false = true := by
          rw [hfull]
          rfl
        rw [if_pos hwaits] at hstep
        exact ⟨cells, Option.some.inj hstep ▸ h⟩
  | work i => exact keptUp_work h hkeeps hstep
  | wake i =>
      simp only [poolStep, if_neg hruns, Option.ite_none_right_eq_some, Option.some.injEq] at hstep
      obtain ⟨hasleep, rfl⟩ := hstep
      obtain ⟨hi, -⟩ := List.getElem?_eq_some_iff.mp hasleep
      refine ⟨cells, h.holds.setWorkers _, h.behind, h.waiting, fun _ => ?_⟩
      exact List.any_eq_true.mpr ⟨.woken, List.mem_set hi _, rfl⟩

/-! ## Liveness -/

theorem keepsUp_of_live_add {s s' : PoolState β} {cells : List ℕ} (h : s.KeptUp cells) {job : β}
    {pJob : ℕ} {signalled : Option ℕ}
    (hstep : poolStep s (.add job pJob signalled) = some s') (hlive : s'.Live)
    (hzero : s.pool.queue_num = 0) : s.workers.any (· ≠ .finished) = true := by
  obtain ⟨-, hadd⟩ := holds_add h.holds h.behind hstep
  have hroom : s.pool.queue_num ≠ maxQueue := by
    rw [hzero]
    decide
  rw [if_neg hroom, if_pos hzero] at hadd
  obtain ⟨hholds, -, -, hsignal⟩ := hadd
  apply (any_willTake_signal hsignal).mp
  apply hlive.served
  intro hnone
  exact absurd (hholds.queue.head_eq_none_iff.mp hnone) (by simp)

theorem keepsUp_of_live_work {s s' : PoolState β} {cells : List ℕ} (h : s.KeptUp cells) {i : ℕ}
    (hstep : poolStep s (.work i) = some s') (hlive : s'.Live) (hnum : s.pool.queue_num ≠ 0) :
    s.producers = [] ∧
      (s.pool.queue_num = 1 ∨ (s.workers.eraseIdx i).any Worker.willTake = true) := by
  have hwork := holds_work h.holds h.behind hstep
  rw [if_neg hnum] at hwork
  obtain ⟨hholds, -, -, hproducers, hworkers⟩ := hwork
  have hnobody : s.producers = [] := by
    apply List.eq_nil_iff_forall_not_mem.mpr
    intro p hp
    have hmem : { p with jobTaken := true } ∈ s'.producers := by
      rw [hproducers]
      exact List.mem_map_of_mem hp
    have hfree := hlive.freed _ hmem rfl
    rw [(h.waiting p hp).1] at hfree
    exact absurd hfree (by decide)
  refine ⟨hnobody, or_iff_not_imp_left.mpr fun hmore => ?_⟩
  rw [← any_willTake_set_finished, ← hworkers]
  apply hlive.served
  intro hnone
  exact hmore ((tail_eq_nil_iff h.holds hnobody hnum).mp
    (hholds.queue.head_eq_none_iff.mp hnone))

/-- A step leaves a live pool exactly if it keeps up. -/
theorem live_iff_keepsUp (s : PoolState β) (a : PoolStep β) (s' : PoolState β)
    (h : ∃ cells, s.KeptUp cells) (hstep : poolStep s a = some s') : s'.Live ↔ KeepsUp s a := by
  constructor
  · intro hlive
    obtain ⟨cells, h⟩ := h
    cases a with
    | add job pJob signalled => exact keepsUp_of_live_add h hstep hlive
    | work i => exact keepsUp_of_live_work h hstep hlive
    | callocFails | retest _ _ | wake _ => trivial
  · intro hkeeps
    obtain ⟨cells', h'⟩ := keptUp_poolStep s a s' h hkeeps hstep
    exact h'.live

theorem keptUp_start (n : ℕ) (job : ℕ → β) (next : ℕ → Option ℕ) :
    (PoolState.start n job next).KeptUp [] where
  holds := holds_start n job next
  behind hne := absurd rfl hne
  waiting _ hp := absurd hp List.not_mem_nil
  served hne := absurd rfl hne

/-- In a pool that keeps up, every state is live exactly if all steps keep up. -/
theorem everyState_live_of_keptUp {s : PoolState β} {cells : List ℕ} (h : s.KeptUp cells)
    (steps : List (PoolStep β)) :
    EveryState poolStep PoolState.Live s steps ↔ EveryStep poolStep KeepsUp s steps :=
  everyState_iff_everyStep keptUp_poolStep live_iff_keepsUp ⟨cells, h⟩ h.live

/-- For any number of workers, the pool is live in every state of a run exactly if jobs are put
into an empty queue only while some worker is left, and taken only while no producer waits and
another worker is on its way to what remains. -/
theorem everyState_live_iff (n : ℕ) (job : ℕ → β) (next : ℕ → Option ℕ)
    (steps : List (PoolStep β)) :
    EveryState poolStep PoolState.Live (PoolState.start n job next) steps ↔
      EveryStep poolStep KeepsUp (PoolState.start n job next) steps :=
  everyState_live_of_keptUp (keptUp_start n job next) steps

/-- One worker, two jobs: the worker takes the first and leaves. -/
theorem not_everyState_live :
    ¬ ∀ (n : ℕ) (job : ℕ → ℕ) (next : ℕ → Option ℕ) (steps : List (PoolStep ℕ)), 1 ≤ n →
      EveryState poolStep PoolState.Live (PoolState.start n job next) steps := by
  intro h
  have hlive := h 1 (fun _ => 0) (fun _ => none) [.add 1 1 none, .add 2 2 none, .work 0]
    (Nat.le_refl 1)
  have hkeeps := (everyState_live_of_keptUp (keptUp_start 1 _ _) _).mp hlive
  exact absurd hkeeps (by decide +kernel)

end ChatRoom
