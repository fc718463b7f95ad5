import Mathlib.Data.Set.Insert
import Mathlib.Data.Set.Basic
import Mathlib.Tactic.Tauto

/-!
# A symmetric relation stored as ordered pairs

A symmetric relation is kept as a set of rows, each pair in both directions, and the
two rows are written one after the other.  Between the two writes an operation is half
done: `adding` has the rows that half done insertions have still to store, `removing`
those that half done removals have still to delete.

`Coherent` says that finishing all of them would leave a symmetric relation.  The rules
tell what each write must respect to keep it so.
-/

namespace PairRelation

variable {α : Type*} {rows adding removing : Set (α × α)}

/-- With every half done operation finished the rows are symmetric, and no insertion and
removal of the same pair are half done at once. -/
structure Coherent (rows adding removing : Set (α × α)) : Prop where
  symmetric : ∀ r, r ∈ (rows ∪ adding) \ removing ↔ r.swap ∈ (rows ∪ adding) \ removing
  apart : ∀ r ∈ adding, r ∉ removing ∧ r.swap ∉ removing

/-- With nothing half done the rows themselves are symmetric. -/
theorem coherent_rest_iff :
    Coherent rows ∅ ∅ ↔ ∀ a b, (a, b) ∈ rows ↔ (b, a) ∈ rows := by
  constructor
  · intro h a b
    simpa using h.symmetric (a, b)
  · intro h
    refine ⟨fun r => ?_, fun r hr => absurd hr (Set.notMem_empty r)⟩
    obtain ⟨a, b⟩ := r
    simpa using h a b

theorem swap_eq_iff {r s : α × α} : r.swap = s ↔ r = s.swap :=
  ⟨fun h => by rw [← h, Prod.swap_swap], fun h => by rw [h, Prod.swap_swap]⟩

/-- The first row of an insertion is stored. -/
theorem Coherent.insertFirst (h : Coherent rows adding removing) (row : α × α)
    (hrow : row ∉ removing) (hswap : row.swap ∉ removing) :
    Coherent (insert row rows) (insert row.swap adding) removing := by
  constructor
  · intro r
    have hr := h.symmetric r
    simp only [Set.mem_sdiff, Set.mem_union, Set.mem_insert_iff, swap_eq_iff,
      Prod.swap_swap] at hr ⊢
    by_cases hfirst : r = row
    · subst hfirst
      simp [hrow, hswap]
    · by_cases hsecond : r = row.swap
      · subst hsecond
        simp [hrow, hswap]
      · simpa [hfirst, hsecond] using hr
  · rintro r (rfl | hr)
    · rw [Prod.swap_swap]
      exact ⟨hswap, hrow⟩
    · exact h.apart r hr

/-- The second row of an insertion is stored. -/
theorem Coherent.insertSecond {row : α × α} (h : Coherent rows (insert row adding) removing) :
    Coherent (insert row rows) adding removing := by
  constructor
  · intro r
    simpa [or_left_comm, or_assoc] using h.symmetric r
  · intro r hr
    exact h.apart r (Set.mem_insert_of_mem row hr)

/-- A removal deletes its first row. -/
theorem Coherent.removeFirst (h : Coherent rows adding removing) (row : α × α)
    (hrow : row ∉ adding) (hswap : row.swap ∉ adding) :
    Coherent (rows \ {row}) adding (insert row.swap removing) := by
  constructor
  · intro r
    have hr := h.symmetric r
    simp only [Set.mem_sdiff, Set.mem_union, Set.mem_insert_iff, Set.mem_singleton_iff,
      swap_eq_iff, Prod.swap_swap] at hr ⊢
    by_cases hfirst : r = row
    · subst hfirst
      simp [hrow]
    · by_cases hsecond : r = row.swap
      · subst hsecond
        simp [hrow]
      · simpa [hfirst, hsecond] using hr
  · intro r hr
    obtain ⟨hremoving, hremovingSwap⟩ := h.apart r hr
    refine ⟨?_, ?_⟩
    · rintro (rfl | hmem)
      · exact hswap hr
      · exact hremoving hmem
    · rintro (heq | hmem)
      · rw [swap_eq_iff, Prod.swap_swap] at heq
        exact hrow (heq ▸ hr)
      · exact hremovingSwap hmem

/-- A removal deletes its second row. -/
theorem Coherent.removeSecond {row : α × α} (h : Coherent rows adding (insert row removing)) :
    Coherent (rows \ {row}) adding removing := by
  have hadding : row ∉ adding := fun hrow => (h.apart row hrow).1 (Set.mem_insert row removing)
  have hsame : (rows \ {row} ∪ adding) \ removing = (rows ∪ adding) \ insert row removing := by
    ext r
    by_cases hr : r = row
    · simp [hr, hadding]
    · simp [hr]
  refine ⟨fun r => by rw [hsame]; exact h.symmetric r, fun r hr => ?_⟩
  obtain ⟨hremoving, hswap⟩ := h.apart r hr
  exact ⟨fun hmem => hremoving (Set.mem_insert_of_mem row hmem),
    fun hmem => hswap (Set.mem_insert_of_mem row hmem)⟩

/-- Half done removals whose second row is gone may be forgotten. -/
theorem Coherent.forgetRemovals {gone : Set (α × α)}
    (h : Coherent rows adding (gone ∪ removing)) (hgone : ∀ r ∈ gone, r ∉ rows) :
    Coherent rows adding removing := by
  have hsame : (rows ∪ adding) \ removing = (rows ∪ adding) \ (gone ∪ removing) := by
    ext r
    have hr : r ∈ gone → r ∉ rows ∪ adding := by
      rintro hmem (hrow | hadd)
      · exact hgone r hmem hrow
      · exact (h.apart r hadd).1 (.inl hmem)
    simp only [Set.mem_sdiff, Set.mem_union] at hr ⊢
    tauto
  refine ⟨fun r => by rw [hsame]; exact h.symmetric r, fun r hr => ?_⟩
  obtain ⟨hremoving, hswap⟩ := h.apart r hr
  exact ⟨fun hmem => hremoving (.inr hmem), fun hmem => hswap (.inr hmem)⟩

end PairRelation
