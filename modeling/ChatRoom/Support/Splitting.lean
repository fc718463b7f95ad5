import ChatRoom.Support.Substring
import Mathlib.Data.List.Basic
import Mathlib.Data.List.Infix

/-!
# Splitting a text at a separator

`pieces` cuts a text at the occurrences of a separator, which are found one after the other from
the left.  Joining the pieces gives the text back; joined texts come apart again exactly if no
separator is found before the one that was put between them.
-/

namespace Splitting

open Substring

variable {α : Type*} [DecidableEq α] {sep text found : List α}

/-- What is behind a separator is shorter than the text in which it was found. -/
theorem length_drop_lt (hsep : sep ≠ []) (h : search sep text = some found) :
    (found.drop sep.length).length < text.length := by
  have hfound := of_search_eq_some h
  have hle := hfound.1.length_le
  have hsepLe := hfound.2.length_le
  have hpos := List.length_pos_of_ne_nil hsep
  rw [List.length_drop]
  omega

/-- The text cut at every separator. -/
def pieces (sep : List α) (hsep : sep ≠ []) (text : List α) : List (List α) :=
  match _h : search sep text with
  | none => [text]
  | some found => text.take (text.length - found.length) :: pieces sep hsep (found.drop sep.length)
termination_by text.length
decreasing_by exact length_drop_lt hsep ‹search sep text = some found›

theorem pieces_of_none (hsep : sep ≠ []) (h : search sep text = none) :
    pieces sep hsep text = [text] := by
  rw [pieces]
  split
  · rfl
  · rename_i hsome
    exact absurd (h.symm.trans hsome) (by simp)

theorem pieces_of_some (hsep : sep ≠ []) (h : search sep text = some found) :
    pieces sep hsep text =
      text.take (text.length - found.length) :: pieces sep hsep (found.drop sep.length) := by
  rw [pieces]
  split
  · rename_i hnone
    exact absurd (h.symm.trans hnone) (by simp)
  · rename_i found' hsome
    obtain rfl := Option.some.inj (h.symm.trans hsome)
    rfl

theorem pieces_ne_nil (hsep : sep ≠ []) (text : List α) : pieces sep hsep text ≠ [] := by
  cases h : search sep text with
  | none => simp [pieces_of_none hsep h]
  | some found => simp [pieces_of_some hsep h]

/-- The pieces of a text in which a separator was found. -/
theorem pieces_append (hsep : sep ≠ []) {before rest : List α}
    (h : search sep (before ++ (sep ++ rest)) = some (sep ++ rest)) :
    pieces sep hsep (before ++ (sep ++ rest)) = before :: pieces sep hsep rest := by
  rw [pieces_of_some hsep h]
  simp

/-- A text either is one piece, or it has a first separator. -/
theorem search_cases (sep text : List α) :
    search sep text = none ∨ ∃ before rest, text = before ++ (sep ++ rest) ∧
      search sep text = some (sep ++ rest) := by
  cases h : search sep text with
  | none => exact .inl rfl
  | some found =>
      obtain ⟨⟨before, hbefore⟩, ⟨rest, rfl⟩⟩ := of_search_eq_some h
      exact .inr ⟨before, rest, hbefore.symm, rfl⟩

/-- Joining the pieces gives the text back. -/
theorem intercalate_pieces (hsep : sep ≠ []) (text : List α) :
    sep.intercalate (pieces sep hsep text) = text := by
  induction hlen : text.length using Nat.strong_induction_on generalizing text with
  | _ n ih =>
      rcases search_cases sep text with hnone | ⟨before, rest, rfl, hsome⟩
      · rw [pieces_of_none hsep hnone, List.intercalate_singleton]
      · have hlt := length_drop_lt hsep hsome
        rw [List.drop_left, hlen] at hlt
        rw [pieces_append hsep hsome, List.intercalate_cons_of_ne_nil (pieces_ne_nil hsep rest),
          ih _ hlt rest rfl, List.append_assoc]

/-- No separator is found before the one that follows. -/
def Separated (sep : List α) : List (List α) → Prop
  | [] => True
  | [p] => ¬ sep <:+: p
  | p :: q :: ps => ¬ sep <:+: p ++ sep.dropLast ∧ Separated sep (q :: ps)

theorem pieces_eq_singleton_iff (hsep : sep ≠ []) (text : List α) :
    pieces sep hsep text = [text] ↔ ¬ sep <:+: text := by
  rw [← search_eq_none_iff]
  refine ⟨fun h => ?_, fun h => pieces_of_none hsep h⟩
  rcases search_cases sep text with hnone | ⟨before, rest, rfl, hsome⟩
  · exact hnone
  · rw [pieces_append hsep hsome] at h
    exact absurd (List.cons.inj h).2 (pieces_ne_nil hsep rest)

/-- Joined texts come apart again exactly if they are separated. -/
theorem pieces_intercalate_iff (hsep : sep ≠ []) {parts : List (List α)} (hparts : parts ≠ []) :
    pieces sep hsep (sep.intercalate parts) = parts ↔ Separated sep parts := by
  induction parts with
  | nil => exact absurd rfl hparts
  | cons p ps ih =>
      cases ps with
      | nil =>
          rw [List.intercalate_singleton]
          exact pieces_eq_singleton_iff hsep p
      | cons q qs =>
          have htail := ih (List.cons_ne_nil q qs)
          rw [List.intercalate_cons_cons, List.append_assoc, Separated, ← htail,
            ← search_append_eq_iff hsep p (sep.intercalate (q :: qs))]
          constructor
          · intro h
            rcases search_cases sep (p ++ (sep ++ sep.intercalate (q :: qs))) with
              hnone | ⟨before, rest, htext, hsome⟩
            · rw [pieces_of_none hsep hnone] at h
              exact absurd (List.cons.inj h).2 (by simp)
            · rw [htext] at hsome h
              rw [pieces_append hsep hsome] at h
              obtain ⟨rfl, hrest⟩ := List.cons.inj h
              have hsame := List.append_cancel_left (List.append_cancel_left htext)
              rw [hsame]
              exact ⟨hsome, hrest⟩
          · rintro ⟨hsome, hrest⟩
            rw [pieces_append hsep hsome, hrest]

omit [DecidableEq α] in
theorem mem_intercalate {a : α} {ps : List (List α)} (h : a ∈ sep.intercalate ps) :
    a ∈ sep ∨ ∃ p ∈ ps, a ∈ p := by
  induction ps with
  | nil => exact absurd h (by simp)
  | cons p ps ih =>
      cases ps with
      | nil => exact .inr ⟨p, List.mem_singleton_self p, by simpa using h⟩
      | cons q qs =>
          rw [List.intercalate_cons_cons, List.append_assoc, List.mem_append, List.mem_append] at h
          rcases h with hp | hsep | htail
          · exact .inr ⟨p, List.mem_cons_self, hp⟩
          · exact .inl hsep
          · refine (ih htail).imp_right fun ⟨r, hr, ha⟩ => ⟨r, List.mem_cons_of_mem p hr, ha⟩

omit [DecidableEq α] in
theorem map_intercalate {β : Type*} (f : α → β) (sep : List α) (ps : List (List α)) :
    (sep.intercalate ps).map f = (sep.map f).intercalate (ps.map (List.map f)) := by
  induction ps with
  | nil => rfl
  | cons p ps ih =>
      cases ps with
      | nil => simp
      | cons q qs =>
          simp only [List.intercalate_cons_cons, List.map_append, List.map_cons, ih]

omit [DecidableEq α] in
/-- What is joined stands in the joined text. -/
theorem infix_intercalate (sep : List α) {p : List α} {ps : List (List α)} (hp : p ∈ ps) :
    p <:+: sep.intercalate ps := by
  induction ps with
  | nil => exact absurd hp (by simp)
  | cons q qs ih =>
      cases qs with
      | nil =>
          obtain rfl := List.mem_singleton.mp hp
          rw [List.intercalate_singleton]
      | cons r rs =>
          rw [List.intercalate_cons_cons, List.append_assoc]
          rcases List.mem_cons.mp hp with rfl | hp
          · exact (List.prefix_append p _).isInfix
          · exact (ih hp).trans ((List.suffix_append sep _).trans (List.suffix_append q _)).isInfix

omit [DecidableEq α] in
theorem length_intercalate_le (sep : List α) {ps qs : List (List α)}
    (hle : List.Forall₂ (fun p q => q.length ≤ p.length) ps qs) :
    (sep.intercalate qs).length ≤ (sep.intercalate ps).length := by
  induction hle with
  | nil => exact le_rfl
  | @cons p q ps qs hpq hrest ih =>
      cases hrest with
      | nil => simpa using hpq
      | cons hpq' hrest' =>
          simp only [List.intercalate_cons_cons, List.length_append]
          omega

omit [DecidableEq α] in
/-- Joining is determined by the texts: if none of them is longer than its counterpart, the joined
text is as long only if each of them is. -/
theorem length_eq_of_length_intercalate {ps qs : List (List α)}
    (hle : List.Forall₂ (fun p q => q.length ≤ p.length) ps qs)
    (h : (sep.intercalate ps).length ≤ (sep.intercalate qs).length) :
    List.Forall₂ (fun p q => q.length = p.length) ps qs := by
  induction hle with
  | nil => exact .nil
  | @cons p q ps qs hpq hrest ih =>
      cases hrest with
      | nil =>
          rw [List.intercalate_singleton, List.intercalate_singleton] at h
          exact .cons (by omega) .nil
      | cons hpq' hrest' =>
          simp only [List.intercalate_cons_cons, List.length_append] at h
          have hmore := length_intercalate_le sep (List.Forall₂.cons hpq' hrest')
          exact .cons (by omega) (ih (by omega))

omit [DecidableEq α] in
/-- With one entry as separator, exactly if none of the texts contains it. -/
theorem separated_singleton_iff {a : α} {parts : List (List α)} :
    Separated [a] parts ↔ ∀ p ∈ parts, a ∉ p := by
  have hinfix : ∀ p : List α, [a] <:+: p ↔ a ∈ p := fun p => by
    constructor
    · intro h
      exact h.subset (List.mem_singleton_self a)
    · intro h
      obtain ⟨x, y, rfl⟩ := List.append_of_mem h
      exact ⟨x, y, by simp⟩
  induction parts with
  | nil => simp [Separated]
  | cons p ps ih =>
      cases ps with
      | nil => simp [Separated, hinfix]
      | cons q qs => simp [Separated, hinfix, ih]

end Splitting
