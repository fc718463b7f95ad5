import ChatRoom.Core.Message
import ChatRoom.Server.ThreadPool
import ChatRoom.Support.Mutex

/-!
# The two mutexes of the pool

The same functions as in `ThreadPool`, cut at every operation on a mutex.  Both take `mutex`;
`addRequest2JobQueue` gives it back except where `calloc` fails, and `threadFunc` gives back
`queue_mutex` instead, which nobody ever takes.
-/

namespace ChatRoom

open Mutex StepSystem

variable {β : Type}

/-- Where a thread stands: in a call of `addRequest2JobQueue`, with the job to add, its copy of
`queue_num` and its `pJob`, or in `threadFunc`. -/
inductive PoolPc (β : Type) where
  | addLock (job : β)
  | addCalloc (job : β)
  | addTest (queue_num pJob : ℕ)
  | addWait (queue_num pJob : ℕ)
  | addLink (queue_num pJob : ℕ)
  | addUnlock
  | addReturned (ulErrCode : ErrCode)
  | workLock
  | workTest
  | workWait
  | workTake
  | workUnlock (pThreadJob : ℕ)
  | workCallback (pThreadJob : ℕ)
  | workReturned

/-- Between the operations that take `mutex` and those that should give it back. -/
def PoolPc.inCritical : PoolPc β → Bool
  | addCalloc _ | addTest _ _ | addLink _ _ | addUnlock | workTest | workTake | workUnlock _ => true
  | addLock _ | addWait _ _ | addReturned _ | workLock | workWait | workCallback _
  | workReturned => false

/-- The pool with its mutexes and the places of all threads.  `strayUnlock` records that a thread
has given back a mutex which it did not have. -/
structure LockState (β : Type) where
  pool : ThreadPools β
  shutdown : Bool
  mutex : Option ℕ
  queue_mutex : Option ℕ
  pcs : ℕ → PoolPc β
  strayUnlock : Bool
  crashed : Bool

/-- A thread makes its next step, where `calloc` answers with the given address or fails, or the
pool is shut down. -/
inductive LockStep where
  | run (t : ℕ) (address : Option ℕ)
  | shutdown

def LockState.goto (s : LockState β) (t : ℕ) (pc : PoolPc β) : LockState β :=
  { s with pcs := Function.update s.pcs t pc }

/-- `pthread_mutex_lock` of `mutex`, also at the end of a wait. -/
def LockState.lockMutex (s : LockState β) (t : ℕ) (pc : PoolPc β) : Option (LockState β) :=
  match s.mutex with
  | none => some ({ s with mutex := some t }.goto t pc)
  | some _ => none

/-- `pthread_mutex_unlock` of `mutex`, also at the start of a wait. -/
def LockState.unlockMutex (s : LockState β) (t : ℕ) (pc : PoolPc β) : LockState β :=
  if s.mutex = some t then { s with mutex := none }.goto t pc
  else { s with strayUnlock := true }.goto t pc

/-- `pthread_mutex_unlock` of `queue_mutex`. -/
def LockState.unlockQueueMutex (s : LockState β) (t : ℕ) (pc : PoolPc β) : LockState β :=
  if s.queue_mutex = some t then { s with queue_mutex := none }.goto t pc
  else { s with strayUnlock := true }.goto t pc

/-- The step of one thread.  A thread that waits may wake at any time. -/
def runThread (s : LockState β) (t : ℕ) (address : Option ℕ) : PoolPc β → Option (LockState β)
  | .addLock job => s.lockMutex t (.addCalloc job)
  | .addCalloc job =>
      match address with
      | none => some (s.goto t (.addReturned .failed))
      | some pJob =>
          let queue_num := s.pool.queue_num
          some ({ s with pool := s.pool.count pJob job }.goto t (.addTest queue_num pJob))
  | .addTest queue_num pJob =>
      if mustWait queue_num s.shutdown then some (s.unlockMutex t (.addWait queue_num pJob))
      else some (s.goto t (.addLink queue_num pJob))
  | .addWait queue_num pJob => s.lockMutex t (.addTest queue_num pJob)
  | .addLink queue_num pJob =>
      match s.pool.link queue_num pJob with
      | none => some { s with crashed := true }
      | some pool => some ({ s with pool := pool }.goto t .addUnlock)
  | .addUnlock => some (s.unlockMutex t (.addReturned .success))
  | .workLock => s.lockMutex t .workTest
  | .workTest =>
      if s.pool.mustSleep s.shutdown then some (s.unlockMutex t .workWait)
      else some (s.goto t .workTake)
  | .workWait => s.lockMutex t .workTest
  | .workTake =>
      match s.pool.take with
      | none => some { s with crashed := true }
      | some (pThreadJob, pool) =>
          some ({ s with pool := pool }.goto t (.workUnlock pThreadJob))
  | .workUnlock pThreadJob => some (s.unlockQueueMutex t (.workCallback pThreadJob))
  | .workCallback _ => some (s.goto t .workReturned)
  | .addReturned _ | .workReturned => none

def lockStep (s : LockState β) (a : LockStep) : Option (LockState β) :=
  if s.crashed then none
  else
    match a with
    | .run t address => runThread s t address (s.pcs t)
    | .shutdown => some { s with shutdown := true }

/-- Threads before their first step: calls that add the given jobs, and workers. -/
def LockState.start (pool : ThreadPools β) (calls : ℕ → Option β) : LockState β where
  pool := pool
  shutdown := false
  mutex := none
  queue_mutex := none
  pcs t := match calls t with
    | some job => .addLock job
    | none => .workLock
  strayUnlock := false
  crashed := false

/-! ## Discipline -/

/-- Whoever holds a mutex is still inside the critical section, and no thread has given back what
it did not have. -/
structure LockState.Disciplined (s : LockState β) : Prop where
  mutex : ∀ t, s.mutex = some t → (s.pcs t).inCritical = true
  queue_mutex : ∀ t, s.queue_mutex = some t → (s.pcs t).inCritical = true
  noStray : s.strayUnlock = false

/-- The steps after which a thread is outside the critical section and has not given back what it
had taken: a failed `calloc`, and the unlock of a worker. -/
def PoolPc.leavesLocked (address : Option ℕ) : PoolPc β → Bool
  | addCalloc _ => address.isNone
  | workUnlock _ => true
  | _ => false

def GivesBack (s : LockState β) : LockStep → Prop
  | .run t address => (s.pcs t).leavesLocked address = false
  | .shutdown => True

instance (s : LockState β) : (a : LockStep) → Decidable (GivesBack s a)
  | .run _ _ => inferInstanceAs (Decidable (_ = _))
  | .shutdown => isTrue trivial

/-! ## The invariant -/

/-- The owner of `mutex` is the thread in the critical section, and `queue_mutex` is free. -/
structure LockState.Exact (s : LockState β) : Prop where
  owns : Owns PoolPc.inCritical s.mutex s.pcs
  queue_mutex : s.queue_mutex = none
  noStray : s.strayUnlock = false

theorem LockState.Exact.disciplined {s : LockState β} (h : s.Exact) : s.Disciplined where
  mutex t := (h.owns t).mp
  queue_mutex t ht := absurd (h.queue_mutex.symm.trans ht) (by simp)
  noStray := h.noStray

section
variable {s s' : LockState β} (h : s.Exact) {t : ℕ} {pc : PoolPc β}
include h

theorem exact_goto (hpc : pc.inCritical = (s.pcs t).inCritical) : (s.goto t pc).Exact :=
  ⟨h.owns.move hpc, h.queue_mutex, h.noStray⟩

theorem exact_lockMutex (hpc : pc.inCritical = true) (hstep : s.lockMutex t pc = some s') :
    s'.Exact := by
  rw [LockState.lockMutex] at hstep
  split at hstep
  · rename_i hfree
    rw [← Option.some.inj hstep]
    have howns := h.owns
    rw [hfree] at howns
    exact ⟨howns.lock hpc, h.queue_mutex, h.noStray⟩
  · cases hstep

theorem exact_unlockMutex (ht : (s.pcs t).inCritical = true) (hpc : pc.inCritical = false) :
    (s.unlockMutex t pc).Exact := by
  rw [LockState.unlockMutex, if_pos (h.owns.owner ht)]
  exact ⟨h.owns.unlock ht hpc, h.queue_mutex, h.noStray⟩

/-- A change of the queue does not concern the mutexes. -/
theorem LockState.Exact.setPool (pool : ThreadPools β) : { s with pool := pool }.Exact :=
  ⟨h.owns, h.queue_mutex, h.noStray⟩

/-- One step of a thread that gives back what it has taken. -/
theorem exact_runThread {address : Option ℕ} (hgives : (s.pcs t).leavesLocked address = false)
    (hstep : runThread s t address (s.pcs t) = some s') : s'.Exact := by
  cases hpc : s.pcs t with
  | addLock _ | addWait _ _ | workLock | workWait =>
      rw [hpc] at hstep
      exact exact_lockMutex h rfl hstep
  | addCalloc job =>
      rw [hpc] at hstep hgives
      rcases address with - | pJob
      · cases hgives
      · rw [← Option.some.inj hstep]
        exact exact_goto (h.setPool _) (by rw [hpc]; rfl)
  | addTest _ _ | workTest =>
      rw [hpc] at hstep
      simp only [runThread] at hstep
      split_ifs at hstep
      · rw [← Option.some.inj hstep]
        exact exact_unlockMutex h (by rw [hpc]; rfl) rfl
      · rw [← Option.some.inj hstep]
        exact exact_goto h (by rw [hpc]; rfl)
  | addLink _ _ | workTake =>
      rw [hpc] at hstep
      simp only [runThread] at hstep
      split at hstep
      · rw [← Option.some.inj hstep]
        exact ⟨h.owns, h.queue_mutex, h.noStray⟩
      · rw [← Option.some.inj hstep]
        exact exact_goto (h.setPool _) (by rw [hpc]; rfl)
  | addUnlock =>
      rw [hpc] at hstep
      rw [← Option.some.inj hstep]
      exact exact_unlockMutex h (by rw [hpc]; rfl) rfl
  | workUnlock _ =>
      rw [hpc] at hgives
      cases hgives
  | workCallback _ =>
      rw [hpc] at hstep
      rw [← Option.some.inj hstep]
      exact exact_goto h (by rw [hpc]; rfl)
  | addReturned _ | workReturned =>
      rw [hpc] at hstep
      cases hstep

end

theorem exact_lockStep (s : LockState β) (a : LockStep) (s' : LockState β) (h : s.Exact)
    (hgives : GivesBack s a) (hstep : lockStep s a = some s') : s'.Exact := by
  simp only [lockStep, Option.ite_none_left_eq_some] at hstep
  cases a with
  | run t address => exact exact_runThread h hgives hstep.2
  | shutdown =>
      rw [← Option.some.inj hstep.2]
      exact ⟨h.owns, h.queue_mutex, h.noStray⟩

/-- A thread that leaves the critical section otherwise still has the mutex. -/
theorem owner_of_leavesLocked {s s' : LockState β} (h : s.Exact) {t : ℕ} {address : Option ℕ}
    (hleaves : (s.pcs t).leavesLocked address = true)
    (hstep : runThread s t address (s.pcs t) = some s') :
    s'.mutex = some t ∧ (s'.pcs t).inCritical = false := by
  cases hpc : s.pcs t with
  | addCalloc job =>
      rw [hpc] at hleaves hstep
      have howner := h.owns.owner (t := t) (by rw [hpc]; rfl)
      have hnone : address = none := by simpa [PoolPc.leavesLocked] using hleaves
      rw [hnone] at hstep
      rw [← Option.some.inj hstep]
      exact ⟨howner, by simp [LockState.goto, PoolPc.inCritical]⟩
  | workUnlock pThreadJob =>
      rw [hpc] at hstep
      have howner := h.owns.owner (t := t) (by rw [hpc]; rfl)
      -- nobody has taken `queue_mutex`, so this unlock is stray
      have hqueue : s.queue_mutex ≠ some t := by simp [h.queue_mutex]
      simp only [runThread, LockState.unlockQueueMutex, if_neg hqueue] at hstep
      rw [← Option.some.inj hstep]
      exact ⟨howner, by simp [LockState.goto, PoolPc.inCritical]⟩
  | _ =>
      rw [hpc] at hleaves
      cases hleaves

/-- A step leaves the locks disciplined exactly if its thread gives back what it has taken. -/
theorem disciplined_iff_givesBack (s : LockState β) (a : LockStep) (s' : LockState β)
    (h : s.Exact) (hstep : lockStep s a = some s') : s'.Disciplined ↔ GivesBack s a := by
  constructor
  · intro hdisciplined
    cases a with
    | run t address =>
        simp only [lockStep, Option.ite_none_left_eq_some] at hstep
        by_contra hleaves
        obtain ⟨howner, hout⟩ := owner_of_leavesLocked h (eq_true_of_ne_false hleaves) hstep.2
        have hin := hdisciplined.mutex t howner
        rw [hout] at hin
        cases hin
    | shutdown => trivial
  · exact fun hgives => (exact_lockStep s a s' h hgives hstep).disciplined

theorem exact_start (pool : ThreadPools β) (calls : ℕ → Option β) :
    (LockState.start pool calls).Exact where
  owns := by
    apply owns_start
    intro t
    simp only [LockState.start]
    split <;> rfl
  queue_mutex := rfl
  noStray := rfl

/-- From exact locks, all states of a run are disciplined exactly if all steps give back. -/
theorem everyState_disciplined_of_exact {s : LockState β} (h : s.Exact) (steps : List LockStep) :
    EveryState lockStep LockState.Disciplined s steps ↔ EveryStep lockStep GivesBack s steps :=
  everyState_iff_everyStep exact_lockStep disciplined_iff_givesBack h h.disciplined

/-- For any calls and workers, whoever holds a mutex is inside the critical section in every state
of a run exactly if in the run no `calloc` fails and no worker comes to its unlock. -/
theorem everyState_disciplined_iff (pool : ThreadPools β) (calls : ℕ → Option β)
    (steps : List LockStep) :
    EveryState lockStep LockState.Disciplined (LockState.start pool calls) steps ↔
      EveryStep lockStep GivesBack (LockState.start pool calls) steps :=
  everyState_disciplined_of_exact (exact_start pool calls) steps

/-- One job is added, and a worker takes it. -/
theorem not_everyState_disciplined :
    ¬ ∀ (pool : ThreadPools ℕ) (calls : ℕ → Option ℕ) (steps : List LockStep),
      EveryState lockStep LockState.Disciplined (LockState.start pool calls) steps := by
  intro h
  let pool := initThreadPools (fun _ => 0) fun _ => none
  let calls : ℕ → Option ℕ := fun t => if t = 0 then some 7 else none
  let steps : List LockStep := [.run 0 none, .run 0 (some 1), .run 0 none, .run 0 none,
    .run 0 none, .run 1 none, .run 1 none, .run 1 none, .run 1 none]
  have hgives := (everyState_disciplined_of_exact (exact_start pool calls) steps).mp
    (h pool calls steps)
  exact absurd hgives (by decide +kernel)

end ChatRoom
