import Mathlib.Logic.Function.Basic

/-!
# A mutex and the places of its threads

`pcs` says where each thread stands, and `critical` which places are inside the critical section.
The mutex has the right owner if exactly its owner stands inside; the rules say which changes of
the owner go with which moves of a thread.
-/

namespace Mutex

variable {ι π : Type*}

/-- The owner of the mutex, if there is one, is the one thread inside the critical section. -/
def Owns (critical : π → Bool) (mutex : Option ι) (pcs : ι → π) : Prop :=
  ∀ t, mutex = some t ↔ critical (pcs t) = true

variable {critical : π → Bool} {mutex : Option ι} {pcs : ι → π}

/-- Before the first thread takes the mutex. -/
theorem owns_start (h : ∀ t, critical (pcs t) = false) : Owns critical none pcs := by
  intro t
  simp [h t]

theorem Owns.owner {t : ι} (h : Owns critical mutex pcs) (ht : critical (pcs t) = true) :
    mutex = some t :=
  (h t).mpr ht

section
variable [DecidableEq ι] {t : ι} {pc : π}

/-- A thread takes the free mutex and enters. -/
theorem Owns.lock (h : Owns critical none pcs) (hpc : critical pc = true) :
    Owns critical (some t) (Function.update pcs t pc) := by
  intro t'
  by_cases heq : t' = t
  · subst heq
    simp [hpc]
  · rw [Function.update_of_ne heq, ← h t']
    simp [Ne.symm heq]

/-- The owner gives the mutex back and leaves. -/
theorem Owns.unlock (h : Owns critical mutex pcs) (ht : critical (pcs t) = true)
    (hpc : critical pc = false) : Owns critical none (Function.update pcs t pc) := by
  intro t'
  by_cases heq : t' = t
  · subst heq
    simp [hpc]
  · have hother : critical (pcs t') ≠ true := by
      rw [Ne, ← h t', h.owner ht]
      simp [Ne.symm heq]
    rw [Function.update_of_ne heq]
    simp [hother]

/-- A thread moves on the side where it is. -/
theorem Owns.move (h : Owns critical mutex pcs) (hpc : critical pc = critical (pcs t)) :
    Owns critical mutex (Function.update pcs t pc) := by
  intro t'
  by_cases heq : t' = t
  · subst heq
    rw [Function.update_self, hpc]
    exact h t'
  · rw [Function.update_of_ne heq]
    exact h t'

end

end Mutex
