import Mathlib.Algebra.Group.Action.Defs
import Mathlib.Algebra.Order.BigOperators.Group.List
import Mathlib.Algebra.Order.Ring.Nat

/-!
# Cutting a byte stream into records

A reader that asks for `n` bytes at a time cuts a stream into consecutive
records of length `n`, the last one possibly shorter.  A writer that emits blocks
agrees with it exactly if every block has length `n`: a shorter block makes the
records run out, a longer one leaves a record too many.
-/

namespace Framing

variable {α : Type*}

/-- The records obtained by reading at most `n` entries at a time. -/
def cut (n : ℕ) (stream : List α) : List (List α) :=
  (List.range ((stream.length + n - 1) / n)).map fun i => (stream.drop (i * n)).take n

theorem length_cut (n : ℕ) (stream : List α) :
    (cut n stream).length = (stream.length + n - 1) / n := by
  simp [cut]

theorem cut_nil (n : ℕ) : cut n ([] : List α) = [] := by
  rcases Nat.eq_zero_or_pos n with rfl | hn
  · simp [cut]
  · apply List.eq_nil_of_length_eq_zero
    rw [length_cut, List.length_nil, Nat.zero_add]
    exact Nat.div_eq_of_lt (by omega)

/-- The reader's loop: one record, then the records of what is left. -/
theorem cut_eq_cons {n : ℕ} (hn : 0 < n) {stream : List α} (hs : stream ≠ []) :
    cut n stream = stream.take n :: cut n (stream.drop n) := by
  have hlen : 0 < stream.length := List.length_pos_iff.mpr hs
  have hcount : (stream.length + n - 1) / n =
      ((stream.drop n).length + n - 1) / n + 1 := by
    rw [List.length_drop]
    rcases Nat.le_total stream.length n with h | h
    · rw [show stream.length + n - 1 = (stream.length - 1) + n by omega,
        Nat.add_div_right _ hn, show stream.length - n + n - 1 = n - 1 by omega,
        Nat.div_eq_of_lt (by omega : stream.length - 1 < n),
        Nat.div_eq_of_lt (by omega : n - 1 < n)]
    · rw [show stream.length + n - 1 = (stream.length - n + n - 1) + n by omega,
        Nat.add_div_right _ hn]
  rw [cut, hcount, List.range_succ_eq_map, List.map_cons, List.map_map]
  congr 1
  · simp
  · rw [cut]
    apply List.map_congr_left
    intro i _
    simp only [Function.comp_apply, List.drop_drop]
    congr 2
    rw [Nat.succ_mul, Nat.add_comm]

theorem cut_append {n : ℕ} (hn : 0 < n) {block : List α} (hb : block.length = n)
    (stream : List α) : cut n (block ++ stream) = block :: cut n stream := by
  have hne : block ++ stream ≠ [] := by
    intro h
    have := congrArg List.length h
    simp only [List.length_append, List.length_nil] at this
    omega
  rw [cut_eq_cons hn hne, List.take_left' hb, List.drop_left' hb]

/-- Blocks of the reader's length come back one by one. -/
theorem cut_flatten {n : ℕ} (hn : 0 < n) {blocks : List (List α)}
    (hb : ∀ b ∈ blocks, b.length = n) : cut n blocks.flatten = blocks := by
  induction blocks with
  | nil => exact cut_nil n
  | cons b bs ih =>
      rw [List.flatten_cons, cut_append hn (hb b List.mem_cons_self),
        ih fun c hc => hb c (List.mem_cons_of_mem b hc)]

/-- Record number `i` has full length exactly if the stream reaches its end. -/
theorem length_getElem_cut {n i : ℕ} (hn : 0 < n) {stream : List α}
    (hi : i < (cut n stream).length) :
    ((cut n stream)[i]).length = n ↔ (i + 1) * n ≤ stream.length := by
  simp only [cut, List.getElem_map, List.getElem_range, List.length_take,
    List.length_drop]
  rw [Nat.succ_mul]
  omega

/-! ## The records of an arbitrary stream -/

/-- Induction on a stream by whole records. -/
theorem cut_induction {n : ℕ} (hn : 0 < n) {motive : List α → Prop} (nil : motive [])
    (step : ∀ stream, stream ≠ [] → motive (stream.drop n) → motive stream)
    (stream : List α) : motive stream := by
  induction hlen : stream.length using Nat.strong_induction_on generalizing stream with
  | _ len ih =>
      by_cases hs : stream = []
      · exact hs ▸ nil
      · have hpos : 0 < stream.length := List.length_pos_iff.mpr hs
        exact step stream hs (ih _ (by rw [List.length_drop]; omega) _ rfl)

theorem flatten_cut {n : ℕ} (hn : 0 < n) (stream : List α) :
    (cut n stream).flatten = stream := by
  induction stream using cut_induction hn with
  | nil => rw [cut_nil, List.flatten_nil]
  | step stream hs ih => rw [cut_eq_cons hn hs, List.flatten_cons, ih, List.take_append_drop]

theorem length_le_of_mem_cut {n : ℕ} {stream r : List α} (hr : r ∈ cut n stream) :
    r.length ≤ n := by
  obtain ⟨i, -, rfl⟩ := List.mem_map.mp hr
  rw [List.length_take]
  exact min_le_left _ _

theorem cut_ne_nil {n : ℕ} (hn : 0 < n) {stream : List α} (hs : stream ≠ []) :
    cut n stream ≠ [] := by
  rw [cut_eq_cons hn hs]
  exact List.cons_ne_nil _ _

/-- Only the last record can be short. -/
theorem length_of_mem_dropLast_cut {n : ℕ} (hn : 0 < n) {stream r : List α}
    (hr : r ∈ (cut n stream).dropLast) : r.length = n := by
  induction stream using cut_induction hn with
  | nil => simp [cut_nil] at hr
  | step stream hs ih =>
      by_cases hrest : stream.drop n = []
      · rw [cut_eq_cons hn hs, hrest, cut_nil] at hr
        exact absurd hr List.not_mem_nil
      · rw [cut_eq_cons hn hs, List.dropLast_cons_of_ne_nil (cut_ne_nil hn hrest)] at hr
        rcases List.mem_cons.mp hr with rfl | hr
        · rw [List.drop_eq_nil_iff, not_le] at hrest
          rw [List.length_take]
          exact min_eq_left hrest.le
        · exact ih hr

/-! ## Totals -/

theorem length_flatten_of_le {n : ℕ} {blocks : List (List α)}
    (hb : ∀ b ∈ blocks, b.length ≤ n) : blocks.flatten.length ≤ blocks.length * n := by
  have hsum := List.sum_le_card_nsmul (blocks.map List.length) n (by simpa using hb)
  rwa [← List.length_flatten, List.length_map, smul_eq_mul] at hsum

theorem le_length_flatten {n : ℕ} {blocks : List (List α)}
    (hb : ∀ b ∈ blocks, n ≤ b.length) : blocks.length * n ≤ blocks.flatten.length := by
  have hsum := List.card_nsmul_le_sum (blocks.map List.length) n (by simpa using hb)
  rwa [← List.length_flatten, List.length_map, smul_eq_mul] at hsum

/-- Blocks of at most `n` entries that add up to full blocks are full blocks. -/
theorem length_eq_of_le_of_flatten {n : ℕ} {blocks : List (List α)}
    (hb : ∀ b ∈ blocks, b.length ≤ n)
    (hsum : blocks.length * n ≤ blocks.flatten.length) :
    ∀ b ∈ blocks, b.length = n := by
  induction blocks with
  | nil => simp
  | cons b bs ih =>
      have hhead := hb b List.mem_cons_self
      have htail : ∀ c ∈ bs, c.length ≤ n := fun c hc => hb c (List.mem_cons_of_mem b hc)
      have hle := length_flatten_of_le htail
      rw [List.flatten_cons, List.length_append, List.length_cons, Nat.succ_mul] at hsum
      intro c hc
      rcases List.mem_cons.mp hc with rfl | hc
      · omega
      · exact ih htail (by omega) c hc

/-- Blocks of at least `n` entries that add up to full blocks are full blocks. -/
theorem length_eq_of_ge_of_flatten {n : ℕ} {blocks : List (List α)}
    (hb : ∀ b ∈ blocks, n ≤ b.length)
    (hsum : blocks.flatten.length ≤ blocks.length * n) :
    ∀ b ∈ blocks, b.length = n := by
  induction blocks with
  | nil => simp
  | cons b bs ih =>
      have hhead := hb b List.mem_cons_self
      have htail : ∀ c ∈ bs, n ≤ c.length := fun c hc => hb c (List.mem_cons_of_mem b hc)
      have hle := le_length_flatten htail
      rw [List.flatten_cons, List.length_append, List.length_cons, Nat.succ_mul] at hsum
      intro c hc
      rcases List.mem_cons.mp hc with rfl | hc
      · omega
      · exact ih htail (by omega) c hc

/-- With blocks no longer than a record, every block has its own full record
exactly if all blocks are full. -/
theorem fullRecords_iff {n : ℕ} (hn : 0 < n) {blocks : List (List α)}
    (hb : ∀ b ∈ blocks, b.length ≤ n) :
    (∀ i < blocks.length, ∃ r, (cut n blocks.flatten)[i]? = some r ∧ r.length = n) ↔
      ∀ b ∈ blocks, b.length = n := by
  constructor
  · intro h
    apply length_eq_of_le_of_flatten hb
    rcases Nat.eq_zero_or_pos blocks.length with hzero | hpos
    · rw [hzero]
      omega
    · obtain ⟨r, hr, hlen⟩ := h (blocks.length - 1) (by omega)
      obtain ⟨hi, rfl⟩ := List.getElem?_eq_some_iff.mp hr
      have hend := (length_getElem_cut hn hi).mp hlen
      rwa [Nat.sub_add_cancel hpos] at hend
  · intro h i hi
    rw [cut_flatten hn h, List.getElem?_eq_getElem hi]
    exact ⟨_, rfl, h _ (List.getElem_mem hi)⟩

/-- With blocks no shorter than a record, there are as many records as blocks
exactly if no block is longer. -/
theorem length_cut_flatten_iff {n : ℕ} (hn : 0 < n) {blocks : List (List α)}
    (hb : ∀ b ∈ blocks, n ≤ b.length) :
    (cut n blocks.flatten).length = blocks.length ↔ ∀ b ∈ blocks, b.length = n := by
  constructor
  · intro h
    apply length_eq_of_ge_of_flatten hb
    rw [length_cut] at h
    by_contra hlt
    have hmore : blocks.length + 1 ≤ (blocks.flatten.length + n - 1) / n := by
      rw [Nat.le_div_iff_mul_le hn, Nat.succ_mul]
      omega
    omega
  · intro h
    rw [cut_flatten hn h]

end Framing
