import Mathlib.Data.List.Nodup
import Mathlib.Logic.Function.Basic

/-!
# Singly linked queues

A queue in memory is a chain of cells, with pointers to its first and its last cell.  `next` is
the field that links the cells, by address.  The rules say what becomes of the list of cells
when one is put in at the tail or taken from the head.
-/

namespace LinkedQueue

variable {α : Type*}

/-- The cells that are reached from a pointer, up to the null pointer. -/
def Chain (next : α → Option α) : Option α → List α → Prop
  | p, [] => p = none
  | p, a :: cells => p = some a ∧ Chain next (next a) cells

/-- The head points to the cells, and the tail to the last of them.  Without cells the tail
may point anywhere. -/
structure IsQueue (next : α → Option α) (head tail : Option α) (cells : List α) : Prop where
  chain : Chain next head cells
  last : ∀ a, cells.getLast? = some a → tail = some a
  nodup : cells.Nodup

variable {next : α → Option α} {head tail : Option α} {cells : List α}

theorem IsQueue.head_eq_none_iff (h : IsQueue next head tail cells) :
    head = none ↔ cells = [] := by
  have hchain := h.chain
  rcases cells with - | ⟨a, cells⟩
  · exact iff_of_true hchain rfl
  · simp [hchain.1]

/-- The last cell of a chain is not linked to another. -/
theorem Chain.next_last {p : Option α} {a : α} (h : Chain next p cells)
    (ha : cells.getLast? = some a) : next a = none := by
  induction cells generalizing p with
  | nil => simp at ha
  | cons b cells ih =>
      rcases cells with - | ⟨c, cells⟩
      · have hba : b = a := by simpa using ha
        rw [← hba]
        exact h.2
      · apply ih h.2
        simpa using ha

/-- The queue without cells. -/
theorem IsQueue.empty (tail : Option α) : IsQueue next none tail [] :=
  ⟨rfl, fun _ h => by simp at h, List.nodup_nil⟩

/-- The head is taken, and the head pointer moves on. -/
theorem IsQueue.pop {a : α} (h : IsQueue next head tail (a :: cells)) :
    IsQueue next (next a) tail cells := by
  refine ⟨h.chain.2, fun b hb => ?_, (List.nodup_cons.mp h.nodup).2⟩
  apply h.last b
  rw [List.getLast?_cons, hb]
  rfl

section
variable [DecidableEq α]

/-- A write to a cell that the chain does not reach leaves the chain as it is. -/
theorem Chain.update {p q : Option α} {a : α} (h : Chain next p cells) (ha : a ∉ cells) :
    Chain (Function.update next a q) p cells := by
  induction cells generalizing p with
  | nil => exact h
  | cons b cells ih =>
      obtain ⟨hb, hcells⟩ := not_or.mp (List.mem_cons.not.mp ha)
      refine ⟨h.1, ?_⟩
      rw [Function.update_of_ne (Ne.symm hb)]
      exact ih h.2 hcells

/-- The first cell of a queue that was empty. -/
theorem IsQueue.first (next : α → Option α) (a : α) :
    IsQueue (Function.update next a none) (some a) (some a) [a] := by
  refine ⟨⟨rfl, ?_⟩, fun b hb => ?_, List.nodup_singleton a⟩
  · exact Function.update_self a none next
  · simpa using hb

/-- Linked behind its last cell, a chain is one cell longer. -/
theorem Chain.append {p : Option α} {last a : α} (h : Chain next p (cells ++ [last]))
    (hlast : last ∉ cells) (ha : a ∉ cells ++ [last]) :
    Chain (Function.update (Function.update next last (some a)) a none) p
      (cells ++ [last] ++ [a]) := by
  have hne : last ≠ a := fun heq => ha (by simp [heq])
  induction cells generalizing p with
  | nil =>
      refine ⟨h.1, ?_, ?_⟩
      · rw [Function.update_of_ne hne, Function.update_self]
      · exact Function.update_self _ _ _
  | cons b cells ih =>
      obtain ⟨hbLast, hlast⟩ := not_or.mp (List.mem_cons.not.mp hlast)
      obtain ⟨hbNew, ha⟩ := not_or.mp (List.mem_cons.not.mp ha)
      refine ⟨h.1, ?_⟩
      rw [Function.update_of_ne (Ne.symm hbNew), Function.update_of_ne (Ne.symm hbLast)]
      exact ih h.2 hlast ha

/-- A cell is unlinked from the cell before it. -/
theorem Chain.unlink {p : Option α} {before after : List α} {pre a : α}
    (h : Chain next p (before ++ pre :: a :: after))
    (hnodup : (before ++ pre :: a :: after).Nodup) :
    Chain (Function.update next pre (next a)) p (before ++ pre :: after) := by
  induction before generalizing p with
  | nil =>
      obtain ⟨hp, -, hafter⟩ := h
      refine ⟨hp, ?_⟩
      rw [Function.update_self]
      refine hafter.update fun hmem => ?_
      exact (List.nodup_cons.mp hnodup).1 (List.mem_cons_of_mem a hmem)
  | cons b before ih =>
      obtain ⟨hb, hrest⟩ := List.nodup_cons.mp hnodup
      refine ⟨h.1, ?_⟩
      rw [Function.update_of_ne fun heq => hb (by simp [heq])]
      exact ih h.2 hrest

/-- A cell that is not in the queue is put in at the tail. -/
theorem IsQueue.push {last a : α} (h : IsQueue next head (some last) cells) (hne : cells ≠ [])
    (ha : a ∉ cells) :
    IsQueue (Function.update (Function.update next last (some a)) a none) head (some a)
      (cells ++ [a]) := by
  have hsplit : cells = cells.dropLast ++ [last] := by
    have htail := h.last _ (List.getLast?_eq_getLast_of_ne_nil hne)
    rw [Option.some.inj htail]
    exact (List.dropLast_append_getLast hne).symm
  have hnodup : (cells.dropLast ++ [last]).Nodup := hsplit ▸ h.nodup
  have hlast : last ∉ cells.dropLast := by
    intro hmem
    exact (List.nodup_append.mp hnodup).2.2 last hmem last (List.mem_singleton_self last) rfl
  refine ⟨?_, fun b hb => ?_, ?_⟩
  · rw [hsplit]
    apply Chain.append _ hlast
    · exact hsplit ▸ ha
    · exact hsplit ▸ h.chain
  · simpa using hb
  · rw [List.nodup_append]
    refine ⟨h.nodup, List.nodup_singleton a, ?_⟩
    rintro b hb c hc rfl
    exact ha (List.mem_singleton.mp hc ▸ hb)

end

end LinkedQueue
