import Mathlib.Algebra.BigOperators.Group.List.Basic
import Mathlib.Data.Fintype.Basic
import Mathlib.Data.Fintype.Defs
import Mathlib.Logic.Function.Basic

/-!
# Transactions with row locks

A store that several connections share.  What a connection changes is pending on it until it
commits or rolls back; it sees what is committed and its own pending changes.  A change may lock a
row, and no other connection changes this row until the transaction has ended.

A quantity of a row is the sum of what the changes contribute to it.  Since pending changes of two
connections lock different rows, a commit of one of them is invisible in the rows of the other.
-/

namespace Transactions

variable {κ ε ρ : Type*}

/-- The committed changes, oldest first, and the pending ones of each connection. -/
structure Store (κ ε : Type*) where
  committed : List ε
  pending : κ → List ε

namespace Store

/-- Nothing has been changed. -/
def start : Store κ ε := ⟨[], fun _ => []⟩

/-- The changes that a connection sees. -/
def seen (s : Store κ ε) (i : κ) : List ε := s.committed ++ s.pending i

/-- No connection has a transaction any more. -/
def rollbackAll (s : Store κ ε) : Store κ ε := { s with pending := fun _ => [] }

section
variable [DecidableEq κ]

def execute (s : Store κ ε) (i : κ) (c : ε) : Store κ ε :=
  { s with pending := Function.update s.pending i (s.pending i ++ [c]) }

def commit (s : Store κ ε) (i : κ) : Store κ ε where
  committed := s.committed ++ s.pending i
  pending := Function.update s.pending i []

def rollback (s : Store κ ε) (i : κ) : Store κ ε :=
  { s with pending := Function.update s.pending i [] }

variable {s : Store κ ε} {i j : κ} {c : ε}

@[simp] theorem committed_execute : (s.execute i c).committed = s.committed := rfl

@[simp] theorem committed_commit : (s.commit i).committed = s.committed ++ s.pending i := rfl

@[simp] theorem committed_rollback : (s.rollback i).committed = s.committed := rfl

@[simp] theorem pending_execute : (s.execute i c).pending i = s.pending i ++ [c] := by
  simp [execute]

@[simp] theorem pending_commit : (s.commit i).pending i = [] := by simp [commit]

@[simp] theorem pending_rollback : (s.rollback i).pending i = [] := by simp [rollback]

theorem pending_execute_of_ne (h : j ≠ i) : (s.execute i c).pending j = s.pending j := by
  simp [execute, h]

theorem pending_commit_of_ne (h : j ≠ i) : (s.commit i).pending j = s.pending j := by
  simp [commit, h]

theorem pending_rollback_of_ne (h : j ≠ i) : (s.rollback i).pending j = s.pending j := by
  simp [rollback, h]

/-- A transaction grows only by its own changes. -/
theorem mem_pending_execute {d : ε} (h : d ∈ (s.execute i c).pending j) :
    d ∈ s.pending j ∨ j = i ∧ d = c := by
  by_cases hji : j = i
  · subst hji
    rw [pending_execute, List.mem_append, List.mem_singleton] at h
    exact h.imp_right fun hd => ⟨rfl, hd⟩
  · rw [pending_execute_of_ne hji] at h
    exact .inl h

theorem mem_pending_commit {d : ε} (h : d ∈ (s.commit i).pending j) : d ∈ s.pending j := by
  by_cases hji : j = i
  · subst hji
    rw [pending_commit] at h
    exact absurd h List.not_mem_nil
  · rwa [pending_commit_of_ne hji] at h

theorem mem_pending_rollback {d : ε} (h : d ∈ (s.rollback i).pending j) : d ∈ s.pending j := by
  by_cases hji : j = i
  · subst hji
    rw [pending_rollback] at h
    exact absurd h List.not_mem_nil
  · rwa [pending_rollback_of_ne hji] at h

end

/-! ## Locks -/

section
variable (locks : ε → Option ρ)

/-- Another connection holds the lock of the row. -/
def Locked (s : Store κ ε) (i : κ) (row : ρ) : Prop :=
  ∃ j, j ≠ i ∧ ∃ c ∈ s.pending j, locks c = some row

instance [Fintype κ] [DecidableEq κ] [DecidableEq ρ] (s : Store κ ε) (i : κ) (row : ρ) :
    Decidable (s.Locked locks i row) :=
  inferInstanceAs (Decidable (∃ _, _))

/-- No two connections hold the lock of one row. -/
def Apart (s : Store κ ε) : Prop :=
  ∀ i j, i ≠ j → ∀ c ∈ s.pending i, ∀ d ∈ s.pending j, ∀ row, locks c = some row →
    locks d ≠ some row

variable {locks} {s : Store κ ε}

/-- Fewer pending changes hold fewer locks. -/
theorem Apart.of_subset {s' : Store κ ε} (h : s.Apart locks)
    (hsub : ∀ i, ∀ c ∈ s'.pending i, c ∈ s.pending i) : s'.Apart locks :=
  fun i j hij c hc d hd => h i j hij c (hsub i c hc) d (hsub j d hd)

theorem apart_start : (start : Store κ ε).Apart locks :=
  fun _ _ _ _ hc => absurd hc List.not_mem_nil

theorem Apart.rollbackAll (h : s.Apart locks) : s.rollbackAll.Apart locks :=
  h.of_subset fun _ _ hc => absurd hc List.not_mem_nil

variable [DecidableEq κ] {i : κ}

theorem Apart.commit (h : s.Apart locks) (i : κ) : (s.commit i).Apart locks :=
  h.of_subset fun _ _ => mem_pending_commit

theorem Apart.rollback (h : s.Apart locks) (i : κ) : (s.rollback i).Apart locks :=
  h.of_subset fun _ _ => mem_pending_rollback

/-- A change that waits for its lock keeps the connections apart. -/
theorem Apart.execute (h : s.Apart locks) {c : ε}
    (hfree : ∀ row, locks c = some row → ¬ s.Locked locks i row) :
    (s.execute i c).Apart locks := by
  intro a b hab d hd e he row hdRow heRow
  rcases mem_pending_execute hd with hdOld | ⟨rfl, rfl⟩
  · rcases mem_pending_execute he with heOld | ⟨rfl, rfl⟩
    · exact h a b hab d hdOld e heOld row hdRow heRow
    · exact hfree row heRow ⟨a, hab, d, hdOld, hdRow⟩
  · rcases mem_pending_execute he with heOld | ⟨rfl, rfl⟩
    · exact hfree row hdRow ⟨b, hab.symm, e, heOld, heRow⟩
    · exact hab rfl

end

/-! ## Quantities of rows -/

section
variable {M : Type*} [AddMonoid M] (part : ρ → ε → M)

/-- What the changes contribute to a row. -/
def amount (row : ρ) (changes : List ε) : M := (changes.map (part row)).sum

@[simp] theorem amount_nil (row : ρ) : amount part row ([] : List ε) = 0 := rfl

@[simp] theorem amount_append (row : ρ) (a b : List ε) :
    amount part row (a ++ b) = amount part row a + amount part row b := by
  simp [amount]

@[simp] theorem amount_singleton (row : ρ) (c : ε) : amount part row [c] = part row c := by
  simp [amount]

variable {part} {locks : ε → Option ρ} (hlocks : ∀ row c, part row c ≠ 0 → locks c = some row)
  {s : Store κ ε} {i j : κ}
include hlocks

/-- Of two transactions only one contributes to a row. -/
theorem Apart.amount_eq_zero (h : s.Apart locks) (hij : i ≠ j) (row : ρ) :
    amount part row (s.pending i) = 0 ∨ amount part row (s.pending j) = 0 := by
  by_contra hboth
  obtain ⟨hi, hj⟩ := not_or.mp hboth
  have hsome : ∀ changes : List ε, amount part row changes ≠ 0 →
      ∃ c ∈ changes, locks c = some row := by
    intro changes hne
    by_contra hnone
    refine hne (List.sum_eq_zero fun x hx => ?_)
    obtain ⟨c, hc, rfl⟩ := List.mem_map.mp hx
    by_contra hpart
    exact hnone ⟨c, hc, hlocks row c hpart⟩
  obtain ⟨c, hc, hcRow⟩ := hsome _ hi
  obtain ⟨d, hd, hdRow⟩ := hsome _ hj
  exact h i j hij c hc d hd row hcRow hdRow

/-- After a commit every other connection sees of a row what it saw before, or what the
connection that committed has seen of it. -/
theorem Apart.amount_seen_commit [DecidableEq κ] (h : s.Apart locks) (hji : j ≠ i) (row : ρ) :
    amount part row ((s.commit i).seen j) = amount part row (s.seen j) ∨
      amount part row ((s.commit i).seen j) = amount part row (s.seen i) := by
  have hseen : (s.commit i).seen j = s.committed ++ s.pending i ++ s.pending j := by
    rw [seen, pending_commit_of_ne hji, committed_commit]
  rw [hseen, seen, seen]
  simp only [amount_append]
  rcases h.amount_eq_zero hlocks hji.symm row with hzero | hzero
  · left
    rw [hzero, add_zero]
  · right
    rw [hzero, add_zero]

end

end Store

end Transactions
