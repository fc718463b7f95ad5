import ChatRoom.Support.LinkedQueue
import ChatRoom.Support.StepSystem

/-!
# The job queue of the thread pool

`addRequest2JobQueue` and `threadFunc` of `threadPool.c`.  The functions on `ThreadPools` are
the pieces of their bodies; `poolStep` runs them for any number of producers and workers, each
stretch between taking the lock and giving it back, or waiting, as one step.
-/

namespace ChatRoom

open LinkedQueue StepSystem

/-- `MAX_QUEUE`. -/
def maxQueue : ℕ := 100

/-- The queue of `ThreadPools`, and the memory of the jobs: for an address, the callback with
its argument, and the link. -/
structure ThreadPools (β : Type) where
  job : ℕ → β
  next : ℕ → Option ℕ
  queue_head : Option ℕ
  queue_tail : Option ℕ
  queue_num : ℕ

variable {β : Type}

/-- `initThreadPools`, as far as the queue goes. -/
def initThreadPools (job : ℕ → β) (next : ℕ → Option ℕ) : ThreadPools β :=
  ⟨job, next, none, none, 0⟩

/-! ## The bodies -/

/-- The start of `addRequest2JobQueue`: the new job is filled in, and the number of jobs goes
up. -/
def ThreadPools.count (pThreadPool : ThreadPools β) (pJob : ℕ) (job : β) : ThreadPools β :=
  { pThreadPool with
    job := Function.update pThreadPool.job pJob job
    next := Function.update pThreadPool.next pJob none
    queue_num := pThreadPool.queue_num + 1 }

/-- The test of the loop in `addRequest2JobQueue`, on its own copy of the number. -/
def mustWait (queue_num : ℕ) (shutdown : Bool) : Bool := queue_num = maxQueue && !shutdown

/-- The end of `addRequest2JobQueue`; `none` is a write through the null pointer. -/
def ThreadPools.link (pThreadPool : ThreadPools β) (queue_num pJob : ℕ) :
    Option (ThreadPools β) :=
  if queue_num = 0 then
    some { pThreadPool with
      next := Function.update pThreadPool.next pJob none
      queue_head := some pJob
      queue_tail := some pJob }
  else
    match pThreadPool.queue_tail with
    | none => none
    | some last =>
        let linked := Function.update pThreadPool.next last (some pJob)
        some { pThreadPool with
          next := Function.update linked pJob none
          queue_tail := some pJob }

/-- The test of the loop in `threadFunc`. -/
def ThreadPools.mustSleep (pThreadPool : ThreadPools β) (shutdown : Bool) : Bool :=
  pThreadPool.queue_num = 0 && !shutdown

/-- The body of `threadFunc` behind its loop: the job at the head is taken out and the number of
jobs goes down; `none` is a read through the null pointer. -/
def ThreadPools.take (pThreadPool : ThreadPools β) : Option (ℕ × ThreadPools β) :=
  match pThreadPool.queue_head with
  | none => none
  | some pThreadJob =>
      some (pThreadJob, { pThreadPool with
        queue_head := pThreadPool.next pThreadJob
        queue_num := pThreadPool.queue_num - 1 })

/-! ## Producers and workers -/

/-- A worker has not reached the lock yet, sleeps on `queue_not_empty`, was woken from there, or
has taken its one job and left the pool. -/
inductive Worker where
  | ready
  | asleep
  | woken
  | finished
deriving DecidableEq

/-- A call of `addRequest2JobQueue` that waits on `queue_not_full`: its own copy of the number of
jobs, its job, and whether a job was taken since it waits. -/
structure Producer where
  queue_num : ℕ
  pJob : ℕ
  jobTaken : Bool
deriving DecidableEq

/-- The pool with its threads.  `crashed` is an access through the null pointer; `allocated` are
the addresses that `calloc` has returned, and the lists of jobs record the calls, the jobs that
were linked, and those that were handed to a callback. -/
structure PoolState (β : Type) where
  pool : ThreadPools β
  workers : List Worker
  producers : List Producer
  crashed : Bool
  allocated : List ℕ
  added : List β
  linked : List β
  handed : List β

/-- The steps: a call of `addRequest2JobQueue` up to its wait or its end, a call whose `calloc`
fails, a waiting producer that wakes, with or without a signal, a worker that has the lock, and a
worker that wakes without a signal.  `signalled` is the worker that a signal wakes. -/
inductive PoolStep (β : Type) where
  | add (job : β) (pJob : ℕ) (signalled : Option ℕ)
  | callocFails
  | retest (k : ℕ) (signalled : Option ℕ)
  | work (i : ℕ)
  | wake (i : ℕ)

/-- `pthread_cond_signal` wakes one of the workers that sleep, if there is one. -/
def signal (workers : List Worker) : Option ℕ → Option (List Worker)
  | some i => if workers[i]? = some .asleep then some (workers.set i .woken) else none
  | none => if .asleep ∈ workers then none else some workers

/-- A producer links its job and signals if it believes the queue to be empty. -/
def PoolState.linkJob (s : PoolState β) (queue_num pJob : ℕ) (signalled : Option ℕ) :
    Option (PoolState β) :=
  match s.pool.link queue_num pJob with
  | none => some { s with crashed := true }
  | some pool =>
      let linked := s.linked ++ [pool.job pJob]
      if queue_num = 0 then
        (signal s.workers signalled).map fun workers =>
          { s with pool := pool, linked := linked, workers := workers }
      else some { s with pool := pool, linked := linked }

/-- A worker takes a job and hands it to its callback. -/
def PoolState.takeJob (s : PoolState β) (i : ℕ) : PoolState β :=
  match s.pool.take with
  | none => { s with crashed := true }
  | some (pThreadJob, pool) =>
      { s with
        pool := pool
        workers := s.workers.set i .finished
        producers := s.producers.map fun p => { p with jobTaken := true }
        handed := s.handed ++ [pool.job pThreadJob] }

/-- One step.  Nothing sets `shutdown`. -/
def poolStep (s : PoolState β) (a : PoolStep β) : Option (PoolState β) :=
  if s.crashed then none
  else
    match a with
    | .add job pJob signalled =>
        if pJob ∈ s.allocated then none
        else
          let queue_num := s.pool.queue_num
          let s' := { s with
            pool := s.pool.count pJob job
            allocated := pJob :: s.allocated
            added := s.added ++ [job] }
          if mustWait queue_num false then
            some { s' with producers := s'.producers ++ [⟨queue_num, pJob, false⟩] }
          else s'.linkJob queue_num pJob signalled
    | .callocFails => some s
    | .retest k signalled =>
        match s.producers[k]? with
        | none => none
        | some p =>
            if mustWait p.queue_num false then some s
            else
              { s with producers := s.producers.eraseIdx k }.linkJob p.queue_num p.pJob signalled
    | .work i =>
        if s.workers[i]? = some .ready ∨ s.workers[i]? = some .woken then
          if s.pool.mustSleep false then some { s with workers := s.workers.set i .asleep }
          else some (s.takeJob i)
        else none
    | .wake i =>
        if s.workers[i]? = some .asleep then some { s with workers := s.workers.set i .woken }
        else none

/-- `createThreads`: the pool with its workers, before the first step. -/
def PoolState.start (n : ℕ) (job : ℕ → β) (next : ℕ → Option ℕ) : PoolState β :=
  ⟨initThreadPools job next, List.replicate n .ready, [], false, [], [], [], []⟩

/-! ## What the queue holds -/

/-- The queue is the chain of the given jobs, and its number counts them and the waiting
producers. -/
structure PoolState.Holds (s : PoolState β) (cells : List ℕ) : Prop where
  queue : IsQueue s.pool.next s.pool.queue_head s.pool.queue_tail cells
  allocated : ∀ a ∈ cells, a ∈ s.allocated
  num : s.pool.queue_num = cells.length + s.producers.length
  jobs : s.handed ++ cells.map s.pool.job = s.linked
  running : s.crashed = false

theorem holds_start (n : ℕ) (job : ℕ → β) (next : ℕ → Option ℕ) :
    (PoolState.start n job next).Holds [] where
  queue := IsQueue.empty none
  allocated _ ha := absurd ha List.not_mem_nil
  num := rfl
  jobs := rfl
  running := rfl

/-- In a pool that holds its queue, a number of 0 means that nobody waits and nothing is
linked. -/
theorem PoolState.Holds.empty {s : PoolState β} {cells : List ℕ} (h : s.Holds cells)
    (hzero : s.pool.queue_num = 0) : cells = [] ∧ s.producers = [] := by
  have hnum := h.num
  constructor
  · exact List.eq_nil_of_length_eq_zero (by omega)
  · exact List.eq_nil_of_length_eq_zero (by omega)

/-- The queue when the new job has been filled in and counted. -/
theorem PoolState.Holds.count {s : PoolState β} {cells : List ℕ} (h : s.Holds cells) {pJob : ℕ}
    (hnew : pJob ∉ s.allocated) (job : β) :
    IsQueue (s.pool.count pJob job).next s.pool.queue_head s.pool.queue_tail cells ∧
      cells.map (s.pool.count pJob job).job = cells.map s.pool.job ∧ pJob ∉ cells := by
  have hfree : pJob ∉ cells := fun hmem => hnew (h.allocated pJob hmem)
  refine ⟨⟨h.queue.chain.update hfree, h.queue.last, h.queue.nodup⟩, ?_, hfree⟩
  apply List.map_congr_left
  intro a ha
  have hne : a ≠ pJob := by
    rintro rfl
    exact hfree ha
  exact Function.update_of_ne hne job s.pool.job

/-- What `link` does to a queue that is as full as the number says. -/
theorem isQueue_link {pool : ThreadPools β} {queue_num pJob : ℕ} {cells : List ℕ}
    (hqueue : IsQueue pool.next pool.queue_head pool.queue_tail cells)
    (hempty : queue_num = 0 ↔ cells = []) (hnew : pJob ∉ cells) :
    ∃ pool', pool.link queue_num pJob = some pool' ∧ pool'.job = pool.job ∧
      pool'.queue_num = pool.queue_num ∧
        IsQueue pool'.next pool'.queue_head pool'.queue_tail (cells ++ [pJob]) := by
  by_cases hzero : queue_num = 0
  · rw [hempty.mp hzero, List.nil_append, ThreadPools.link, if_pos hzero]
    exact ⟨_, rfl, rfl, rfl, IsQueue.first pool.next pJob⟩
  · have hne : cells ≠ [] := fun hnil => hzero (hempty.mpr hnil)
    have htail := hqueue.last _ (List.getLast?_eq_getLast_of_ne_nil hne)
    rw [ThreadPools.link, if_neg hzero, htail]
    rw [htail] at hqueue
    exact ⟨_, rfl, rfl, rfl, hqueue.push hne hnew⟩

/-- A job that was counted is linked behind the others. -/
theorem holds_linkJob {s s' : PoolState β} {cells : List ℕ} {queue_num pJob : ℕ}
    {signalled : Option ℕ}
    (hqueue : IsQueue s.pool.next s.pool.queue_head s.pool.queue_tail cells)
    (hallocated : ∀ a ∈ cells ++ [pJob], a ∈ s.allocated)
    (hnum : s.pool.queue_num = cells.length + s.producers.length + 1)
    (hjobs : s.handed ++ cells.map s.pool.job = s.linked) (hrunning : s.crashed = false)
    (hempty : queue_num = 0 ↔ cells = []) (hnew : pJob ∉ cells)
    (h : s.linkJob queue_num pJob signalled = some s') :
    s'.Holds (cells ++ [pJob]) ∧ s'.producers = s.producers ∧ s'.added = s.added ∧
      s'.linked = s.linked ++ [s.pool.job pJob] ∧
        if queue_num = 0 then signal s.workers signalled = some s'.workers
        else s'.workers = s.workers := by
  obtain ⟨pool, hlink, hjob, hcount, hlinked⟩ := isQueue_link hqueue hempty hnew
  have hlength : pool.queue_num = (cells ++ [pJob]).length + s.producers.length := by
    rw [hcount, hnum, List.length_append, List.length_singleton]
    omega
  have hhanded : s.handed ++ (cells ++ [pJob]).map pool.job = s.linked ++ [pool.job pJob] := by
    rw [List.map_append, ← List.append_assoc, hjob, hjobs]
    rfl
  simp only [PoolState.linkJob, hlink] at h
  by_cases hzero : queue_num = 0
  · rw [if_pos hzero] at h ⊢
    obtain ⟨workers, hsignal, rfl⟩ := Option.map_eq_some_iff.mp h
    exact ⟨⟨hlinked, hallocated, hlength, hhanded, hrunning⟩, rfl, rfl, by rw [← hjob], hsignal⟩
  · rw [if_neg hzero] at h ⊢
    obtain rfl := Option.some.inj h
    exact ⟨⟨hlinked, hallocated, hlength, hhanded, hrunning⟩, rfl, rfl, by rw [← hjob], rfl⟩

/-- What a call of `addRequest2JobQueue` does: it waits if it finds the queue full, and links its
job if not. -/
theorem holds_add {s s' : PoolState β} {cells : List ℕ} (h : s.Holds cells)
    (hwaits : s.producers ≠ [] → cells ≠ []) {job : β} {pJob : ℕ} {signalled : Option ℕ}
    (hstep : poolStep s (.add job pJob signalled) = some s') :
    s'.added = s.added ++ [job] ∧
      if s.pool.queue_num = maxQueue then
        s'.Holds cells ∧ s'.producers = s.producers ++ [⟨maxQueue, pJob, false⟩] ∧
          s'.workers = s.workers
      else
        s'.Holds (cells ++ [pJob]) ∧ s'.producers = s.producers ∧ s'.linked = s.linked ++ [job] ∧
          if s.pool.queue_num = 0 then signal s.workers signalled = some s'.workers
          else s'.workers = s.workers := by
  have hnum := h.num
  have hruns : ¬ s.crashed = true := by simp [h.running]
  simp only [poolStep, if_neg hruns] at hstep
  split_ifs at hstep with hold hfull
  · obtain ⟨hqueue, hmap, hfree⟩ := h.count hold job
    have hmax : s.pool.queue_num = maxQueue := by simpa [mustWait] using hfull
    obtain rfl := Option.some.inj hstep
    rw [if_pos hmax, hmax]
    refine ⟨rfl, ⟨hqueue, ?_, ?_, ?_, h.running⟩, rfl, rfl⟩
    · exact fun a ha => List.mem_cons_of_mem pJob (h.allocated a ha)
    · simp only [ThreadPools.count, List.length_append, List.length_singleton]
      omega
    · rw [hmap]
      exact h.jobs
  · obtain ⟨hqueue, hmap, hfree⟩ := h.count hold job
    have hmax : s.pool.queue_num ≠ maxQueue := by simpa [mustWait] using hfull
    rw [if_neg hmax]
    have hempty : s.pool.queue_num = 0 ↔ cells = [] := by
      refine ⟨fun hzero => (h.empty hzero).1, fun hnil => ?_⟩
      have hnobody : s.producers = [] := by
        by_contra hne
        exact hwaits hne hnil
      rw [hnum, hnil, hnobody]
      rfl
    have hallocated : ∀ a ∈ cells ++ [pJob], a ∈ pJob :: s.allocated := by
      intro a ha
      rcases List.mem_append.mp ha with ha | ha
      · exact List.mem_cons_of_mem pJob (h.allocated a ha)
      · rw [List.mem_singleton.mp ha]
        exact List.mem_cons_self
    have hcounted : (s.pool.count pJob job).queue_num =
        cells.length + s.producers.length + 1 := by
      simp only [ThreadPools.count, hnum]
    have hself : (s.pool.count pJob job).job pJob = job := Function.update_self _ _ _
    have hjobs : s.handed ++ cells.map (s.pool.count pJob job).job = s.linked := by
      rw [hmap]
      exact h.jobs
    let s₁ := { s with
      pool := s.pool.count pJob job
      allocated := pJob :: s.allocated
      added := s.added ++ [job] }
    obtain ⟨hholds, hproducers, hadded, hlinked, hworkers⟩ :=
      holds_linkJob (s := s₁) hqueue hallocated hcounted hjobs h.running hempty hfree hstep
    refine ⟨hadded, hholds, hproducers, ?_, hworkers⟩
    rw [hlinked, hself]

/-- What a worker with the lock does: it goes to sleep if the number is 0, and takes the job at
the head if not. -/
theorem holds_work {s s' : PoolState β} {cells : List ℕ} (h : s.Holds cells)
    (hwaits : s.producers ≠ [] → cells ≠ []) {i : ℕ} (hstep : poolStep s (.work i) = some s') :
    if s.pool.queue_num = 0 then s' = { s with workers := s.workers.set i .asleep }
    else
      s'.Holds cells.tail ∧ s'.added = s.added ∧ s'.linked = s.linked ∧
        s'.producers = s.producers.map (fun p => { p with jobTaken := true }) ∧
          s'.workers = s.workers.set i .finished := by
  have hnum := h.num
  have hruns : ¬ s.crashed = true := by simp [h.running]
  simp only [poolStep, if_neg hruns] at hstep
  split_ifs at hstep with hworker hsleep
  · have hzero : s.pool.queue_num = 0 := by simpa [ThreadPools.mustSleep] using hsleep
    rw [if_pos hzero]
    exact (Option.some.inj hstep).symm
  · have hpos : s.pool.queue_num ≠ 0 := by simpa [ThreadPools.mustSleep] using hsleep
    rw [if_neg hpos]
    obtain rfl := Option.some.inj hstep
    rcases cells with - | ⟨a, rest⟩
    · have hnobody : s.producers = [] := by
        by_contra hne
        exact hwaits hne rfl
      exact absurd (by rw [hnum, hnobody]; rfl) hpos
    · have hhead := h.queue.chain.1
      rw [PoolState.takeJob, ThreadPools.take, hhead]
      refine ⟨⟨h.queue.pop, ?_, ?_, ?_, h.running⟩, rfl, rfl, rfl, rfl⟩
      · exact fun b hb => h.allocated b (List.mem_cons_of_mem a hb)
      · simp only [List.length_cons] at hnum
        simp only [List.tail_cons, List.length_map]
        omega
      · rw [← h.jobs]
        simp

/-! ## Integrity -/

/-- The number of jobs is the number of jobs in the queue and at most `maxQueue`, the tail is the
last of them and not linked any further, no thread has run into the null pointer, the jobs handed
to callbacks are the first of those that were linked, in order, and every job that was added is
linked or waits. -/
structure PoolState.Intact (s : PoolState β) : Prop where
  queue : ∃ cells, IsQueue s.pool.next s.pool.queue_head s.pool.queue_tail cells ∧
    (∀ a, cells.getLast? = some a → s.pool.next a = none) ∧
    s.pool.queue_num = cells.length ∧ cells.length ≤ maxQueue ∧
      s.handed ++ cells.map s.pool.job = s.linked
  running : s.crashed = false
  added : (s.linked ++ s.producers.map fun p => s.pool.job p.pJob).Perm s.added

/-- The call finds a place in the queue. -/
def FindsRoom (s : PoolState β) : PoolStep β → Prop
  | .add _ _ _ => s.pool.queue_num ≠ maxQueue
  | _ => True

instance (s : PoolState β) : (a : PoolStep β) → Decidable (FindsRoom s a)
  | .add _ _ _ => inferInstanceAs (Decidable (_ ≠ _))
  | .callocFails | .retest _ _ | .work _ | .wake _ => isTrue trivial

/-- Nobody waits, and the queue is not too long. -/
def PoolState.Unblocked (s : PoolState β) : Prop :=
  ∃ cells, s.Holds cells ∧ s.producers = [] ∧ cells.length ≤ maxQueue ∧ s.linked = s.added

theorem PoolState.Unblocked.intact {s : PoolState β} (h : s.Unblocked) : s.Intact := by
  obtain ⟨cells, hholds, hnobody, hlength, hadded⟩ := h
  have hnum := hholds.num
  rw [hnobody] at hnum
  refine ⟨⟨cells, hholds.queue, ?_, hnum, hlength, hholds.jobs⟩, hholds.running, ?_⟩
  · exact fun a ha => hholds.queue.chain.next_last ha
  · rw [hnobody, hadded, List.map_nil, List.append_nil]

theorem PoolState.Holds.setWorkers {s : PoolState β} {cells : List ℕ} (h : s.Holds cells)
    (workers : List Worker) : { s with workers := workers }.Holds cells :=
  ⟨h.queue, h.allocated, h.num, h.jobs, h.running⟩

/-- Steps that find room leave a pool in which nobody waits. -/
theorem unblocked_poolStep (s : PoolState β) (a : PoolStep β) (s' : PoolState β)
    (h : s.Unblocked) (hroom : FindsRoom s a) (hstep : poolStep s a = some s') :
    s'.Unblocked := by
  obtain ⟨cells, hholds, hnobody, hlength, hadded⟩ := h
  have hnum := hholds.num
  have hruns : ¬ s.crashed = true := by simp [hholds.running]
  have hwaits : s.producers ≠ [] → cells ≠ [] := fun hne => absurd hnobody hne
  rw [hnobody] at hnum
  cases a with
  | add job pJob signalled =>
      obtain ⟨hnewAdded, hlinks⟩ := holds_add hholds hwaits hstep
      rw [if_neg hroom] at hlinks
      obtain ⟨hholds', hproducers, hlinked, -⟩ := hlinks
      refine ⟨cells ++ [pJob], hholds', hproducers.trans hnobody, ?_, ?_⟩
      · have hne : cells.length ≠ maxQueue := fun heq => hroom (hnum.trans heq)
        rw [List.length_append, List.length_singleton]
        omega
      · rw [hnewAdded, hlinked, hadded]
  | callocFails =>
      simp only [poolStep, if_neg hruns, Option.some.injEq] at hstep
      rw [← hstep]
      exact ⟨cells, hholds, hnobody, hlength, hadded⟩
  | retest k signalled =>
      simp [poolStep, hnobody] at hstep
  | work i =>
      have htaken := holds_work hholds hwaits hstep
      split_ifs at htaken
      · rw [htaken]
        exact ⟨cells, hholds.setWorkers _, hnobody, hlength, hadded⟩
      · obtain ⟨hholds', hsameAdded, hsameLinked, hproducers, -⟩ := htaken
        refine ⟨cells.tail, hholds', ?_, ?_, ?_⟩
        · rw [hproducers, hnobody, List.map_nil]
        · rw [List.length_tail]
          omega
        · rw [hsameLinked, hsameAdded, hadded]
  | wake i =>
      simp only [poolStep, if_neg hruns, Option.ite_none_right_eq_some, Option.some.injEq] at hstep
      rw [← hstep.2]
      exact ⟨cells, hholds.setWorkers _, hnobody, hlength, hadded⟩

/-- A step leaves the queue intact exactly if it finds room. -/
theorem intact_iff_findsRoom (s : PoolState β) (a : PoolStep β) (s' : PoolState β)
    (h : s.Unblocked) (hstep : poolStep s a = some s') : s'.Intact ↔ FindsRoom s a := by
  constructor
  · intro hintact
    cases a with
    | add job pJob signalled =>
        intro hfull
        obtain ⟨cells, hholds, hnobody, -, -⟩ := h
        have hwaits : s.producers ≠ [] → cells ≠ [] := fun hne => absurd hnobody hne
        obtain ⟨-, hblocked⟩ := holds_add hholds hwaits hstep
        rw [if_pos hfull] at hblocked
        obtain ⟨hholds', hproducers, -⟩ := hblocked
        have hnum := hholds.num
        have hnum' := hholds'.num
        rw [hproducers, hnobody] at hnum'
        rw [hnobody] at hnum
        -- the waiting call has been counted, but its job is not in the queue
        obtain ⟨cells', -, -, hcount, hlength, -⟩ := hintact.queue
        simp only [List.length_nil, List.nil_append, List.length_singleton] at hnum hnum'
        omega
    | _ => trivial
  · exact fun hroom => (unblocked_poolStep s a s' h hroom hstep).intact

theorem unblocked_start (n : ℕ) (job : ℕ → β) (next : ℕ → Option ℕ) :
    (PoolState.start n job next).Unblocked :=
  ⟨[], holds_start n job next, rfl, Nat.zero_le _, rfl⟩

/-- From a pool in which nobody waits, the queue stays intact exactly if all calls find room. -/
theorem everyState_intact_of_unblocked {s : PoolState β} (h : s.Unblocked)
    (steps : List (PoolStep β)) :
    EveryState poolStep PoolState.Intact s steps ↔ EveryStep poolStep FindsRoom s steps :=
  everyState_iff_everyStep unblocked_poolStep intact_iff_findsRoom h h.intact

/-- For any numbers of workers and producers, the queue is intact in every state of a run exactly
if no call of `addRequest2JobQueue` finds the queue full. -/
theorem everyState_intact_iff (n : ℕ) (job : ℕ → β) (next : ℕ → Option ℕ)
    (steps : List (PoolStep β)) :
    EveryState poolStep PoolState.Intact (PoolState.start n job next) steps ↔
      EveryStep poolStep FindsRoom (PoolState.start n job next) steps :=
  everyState_intact_of_unblocked (unblocked_start n job next) steps

/-- 101 jobs are added before the first worker gets the lock. -/
theorem not_everyState_intact :
    ¬ ∀ (n : ℕ) (job : ℕ → ℕ) (next : ℕ → Option ℕ) (steps : List (PoolStep ℕ)),
      EveryState poolStep PoolState.Intact (PoolState.start n job next) steps := by
  intro h
  let steps : List (PoolStep ℕ) := (List.range 101).map fun i => .add i i none
  have hintact := h 1 (fun _ => 0) (fun _ => none) steps
  have hroom := (everyState_intact_of_unblocked (unblocked_start 1 _ _) steps).mp hintact
  exact absurd hroom (by decide +kernel)

end ChatRoom
