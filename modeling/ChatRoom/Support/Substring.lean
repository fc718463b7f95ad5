import Mathlib.Data.List.Infix
import Mathlib.Tactic.Common

/-!
# Searching a text

`search` finds the first occurrence of one list in another.  Texts that are delimited by a mark
are found quickly: no occurrence starts in a part without the first entry of what is searched.
-/

namespace Substring

variable {α : Type*} {a : α}

/-- Of two texts that end at the first delimiter, one starts with the other only if they are the
same. -/
theorem eq_of_prefix_delimiter {x y rest : List α} (hx : a ∉ x) (hy : a ∉ y)
    (h : x ++ [a] <+: y ++ a :: rest) : x = y := by
  induction x generalizing y with
  | nil =>
      cases y with
      | nil => rfl
      | cons b y =>
          obtain ⟨rfl, -⟩ := List.cons_prefix_cons.mp h
          exact absurd List.mem_cons_self hy
  | cons b x ih =>
      cases y with
      | nil =>
          obtain ⟨rfl, -⟩ := List.cons_prefix_cons.mp h
          exact absurd List.mem_cons_self hx
      | cons c y =>
          obtain ⟨rfl, hrest⟩ := List.cons_prefix_cons.mp h
          rw [List.mem_cons, not_or] at hx hy
          rw [ih hx.2 hy.2 hrest]

variable [DecidableEq α] {needle text : List α}

/-- The text from the first occurrence of `needle` on. -/
def search (needle : List α) : List α → Option (List α)
  | [] => if needle = [] then some [] else none
  | a :: text => if needle <+: a :: text then some (a :: text) else search needle text

theorem search_of_start (h : needle <+: text) : search needle text = some text := by
  cases text with
  | nil => exact if_pos (List.prefix_nil.mp h)
  | cons a text => exact if_pos h

theorem search_cons_of_not (h : ¬ needle <+: a :: text) :
    search needle (a :: text) = search needle text :=
  if_neg h

/-- What is found is the end of the text, and starts with what was searched. -/
theorem of_search_eq_some {found : List α} (h : search needle text = some found) :
    found <:+ text ∧ needle <+: found := by
  induction text with
  | nil =>
      rw [search, Option.ite_none_right_eq_some] at h
      obtain ⟨rfl, h⟩ := h
      obtain rfl : [] = found := Option.some.inj h
      exact ⟨List.suffix_rfl, List.prefix_rfl⟩
  | cons a text ih =>
      by_cases hstarts : needle <+: a :: text
      · obtain rfl : a :: text = found := Option.some.inj ((if_pos hstarts).symm.trans h)
        exact ⟨List.suffix_rfl, hstarts⟩
      · rw [search_cons_of_not hstarts] at h
        exact ⟨(ih h).1.trans (List.suffix_cons a text), (ih h).2⟩

/-- No occurrence is missed. -/
theorem search_eq_none_iff : search needle text = none ↔ ¬ needle <:+: text := by
  induction text with
  | nil =>
      rw [search, List.infix_nil]
      split_ifs with h <;> simp [h]
  | cons a text ih =>
      rw [List.infix_cons_iff]
      by_cases hstarts : needle <+: a :: text
      · simp [search_of_start hstarts, hstarts]
      · rw [search_cons_of_not hstarts, ih]
        simp [hstarts]

/-- What is found starts no later than any occurrence. -/
theorem exists_search_of_append (before rest : List α) :
    ∃ found, search needle (before ++ (needle ++ rest)) = some found ∧
      needle ++ rest <:+ found := by
  induction before with
  | nil => exact ⟨_, search_of_start (List.prefix_append needle rest), List.suffix_rfl⟩
  | cons b before ih =>
      rw [List.cons_append]
      by_cases hstarts : needle <+: b :: (before ++ (needle ++ rest))
      · refine ⟨_, search_of_start hstarts, ?_⟩
        exact (List.suffix_append before _).trans (List.suffix_cons b _)
      · rw [search_cons_of_not hstarts]
        exact ih

/-- An occurrence is the first one exactly if none starts in front of it, where it would end before
this one does. -/
theorem search_append_eq_iff (hneedle : needle ≠ []) (before rest : List α) :
    search needle (before ++ (needle ++ rest)) = some (needle ++ rest) ↔
      ¬ needle <:+: before ++ needle.dropLast := by
  have hlast : needle = needle.dropLast ++ [needle.getLast hneedle] :=
    (List.dropLast_append_getLast hneedle).symm
  have hpos : 0 < needle.length := List.length_pos_of_ne_nil hneedle
  have htext : before ++ (needle ++ rest) =
      (before ++ needle.dropLast) ++ (needle.getLast hneedle :: rest) := by
    conv_lhs => rw [hlast]
    simp
  constructor
  · rintro hsearch ⟨x, y, hxy⟩
    -- an earlier occurrence leaves more text behind it than this one
    obtain ⟨found, hfound, hbehind⟩ := exists_search_of_append x
      (y ++ needle.getLast hneedle :: rest)
    have hsame : x ++ (needle ++ (y ++ needle.getLast hneedle :: rest)) =
        before ++ (needle ++ rest) := by
      rw [htext, ← hxy]
      simp
    rw [hsame, hsearch] at hfound
    obtain rfl := Option.some.inj hfound
    have hle := hbehind.length_le
    simp only [List.length_append, List.length_cons] at hle
    omega
  · intro hnone
    obtain ⟨found, hfound, z, rfl⟩ : ∃ found, search needle (before ++ (needle ++ rest)) =
        some found ∧ needle ++ rest <:+ found := exists_search_of_append before rest
    obtain ⟨⟨x, hx⟩, hstarts⟩ := of_search_eq_some hfound
    cases z with
    | nil => exact hfound
    | cons c z =>
        -- what was found starts earlier, and the needle in it ends before this one does
        rw [← List.append_assoc] at hx
        have hbefore : x ++ c :: z = before := List.append_cancel_right hx
        have hcut : c :: z ++ needle.dropLast <+: c :: z ++ (needle ++ rest) :=
          List.prefix_append_right_inj _ |>.mpr
            ((List.dropLast_prefix needle).trans (List.prefix_append needle rest))
        have hinfix : needle <+: c :: z ++ needle.dropLast := by
          refine List.prefix_of_prefix_length_le hstarts hcut ?_
          simp only [List.length_append, List.length_cons, List.length_dropLast]
          omega
        refine absurd ?_ hnone
        rw [← hbefore, List.append_assoc]
        exact hinfix.isInfix.trans (List.suffix_append x _).isInfix

/-- No occurrence starts in a part without the first entry of what is searched. -/
theorem search_append_of_not_mem {mark : α} {rest before : List α} (h : mark ∉ before)
    (text : List α) : search (mark :: rest) (before ++ text) = search (mark :: rest) text := by
  induction before with
  | nil => rfl
  | cons b before ih =>
      rw [List.mem_cons, not_or] at h
      have hstarts : ¬ mark :: rest <+: b :: (before ++ text) := fun hp =>
        h.1 (List.cons_prefix_cons.mp hp).1
      rw [List.cons_append, search_cons_of_not hstarts, ih h.2]

end Substring
