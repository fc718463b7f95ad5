import ChatRoom.Support.Substring

/-!
# Patterns with wildcards

A pattern is a list of parts with a wildcard between any two of them, and a text matches it if it
consists of the parts in their order with anything in place of the wildcards.  A search for one
part after the other, each from the end of the one before, decides this: the first occurrence of a
part leaves the most text to the parts behind it.
-/

namespace Wildcard

open Substring

variable {α : Type*}

/-- A text that starts with a wildcard and goes on with the parts. -/
def MatchesFrom : List (List α) → List α → Prop
  | [], _ => True
  | [p], text => p <:+ text
  | p :: q :: ps, text => ∃ gap rest, text = gap ++ (p ++ rest) ∧ MatchesFrom (q :: ps) rest

/-- A text that consists of the parts with anything between them. -/
def Matches : List (List α) → List α → Prop
  | [], _ => False
  | [p], text => text = p
  | p :: q :: ps, text => ∃ rest, text = p ++ rest ∧ MatchesFrom (q :: ps) rest

/-- What a wildcard stands for may become longer. -/
theorem MatchesFrom.of_suffix {ps : List (List α)} {text longer : List α}
    (h : MatchesFrom ps text) (hsuffix : text <:+ longer) : MatchesFrom ps longer := by
  match ps, h with
  | [], _ => trivial
  | [p], h => exact List.IsSuffix.trans h hsuffix
  | p :: q :: ps, h =>
      obtain ⟨gap, rest, rfl, hrest⟩ := h
      obtain ⟨before, rfl⟩ := hsuffix
      exact ⟨before ++ gap, rest, (List.append_assoc _ _ _).symm, hrest⟩

variable [DecidableEq α]

/-- Each part is searched from the end of the one before; `accepts` is an additional test of the
last one. -/
def searchParts (accepts : List α → Bool) : List (List α) → List α → Bool
  | [], _ => true
  | p :: ps, text =>
      if ps = [] && !accepts p then false
      else
        match search p text with
        | none => false
        | some found => searchParts accepts ps (found.drop p.length)

/-- The first occurrence of a part will do, as far as the parts behind it are concerned. -/
theorem matchesFrom_cons_iff {p q : List α} {ps : List (List α)} {text : List α} :
    MatchesFrom (p :: q :: ps) text ↔
      ∃ found, search p text = some found ∧ MatchesFrom (q :: ps) (found.drop p.length) := by
  constructor
  · rintro ⟨gap, rest, rfl, hrest⟩
    obtain ⟨found, hfound, hbehind⟩ : ∃ found, search p (gap ++ (p ++ rest)) = some found ∧
        p ++ rest <:+ found := exists_search_of_append gap rest
    refine ⟨found, hfound, hrest.of_suffix ?_⟩
    obtain ⟨before, rfl⟩ := hbehind
    obtain ⟨behind, hp⟩ := (of_search_eq_some hfound).2
    rw [← hp, List.drop_left]
    -- both are ends of the same text, and this one is no shorter
    have hrestSuffix : rest <:+ p ++ behind := by
      rw [hp]
      exact (List.suffix_append p rest).trans (List.suffix_append before _)
    have hlen := congrArg List.length hp
    simp only [List.length_append] at hlen
    exact List.suffix_of_suffix_length_le hrestSuffix (List.suffix_append p behind) (by omega)
  · rintro ⟨found, hfound, hrest⟩
    obtain ⟨⟨gap, rfl⟩, ⟨rest, rfl⟩⟩ := of_search_eq_some hfound
    rw [List.drop_left] at hrest
    exact ⟨gap, rest, rfl, hrest⟩

theorem searchParts_last (accepts : List α → Bool) (p text : List α) :
    searchParts accepts [p] text = true ↔ accepts p = true ∧ p <:+: text := by
  have hfound : (search p text).isSome = true ↔ p <:+: text := by
    rw [← not_iff_not, ← search_eq_none_iff]
    simp
  rw [searchParts, ← hfound]
  cases haccepts : accepts p <;> cases search p text <;> simp [searchParts]

theorem searchParts_cons (accepts : List α → Bool) (p q : List α) (ps : List (List α))
    (text : List α) :
    searchParts accepts (p :: q :: ps) text = true ↔
      ∃ found, search p text = some found ∧
        searchParts accepts (q :: ps) (found.drop p.length) = true := by
  rw [searchParts]
  cases search p text <;> simp

/-- The search decides whether a text matches behind a wildcard, when the test of the last part
says whether it stands at the end of the whole text. -/
theorem searchParts_iff {accepts : List α → Bool} {whole : List α} {ps : List (List α)}
    (hps : ps ≠ []) {text : List α} (hsuffix : text <:+ whole)
    (haccepts : ∀ p, p.length ≤ whole.length → (accepts p = true ↔ p <:+ whole)) :
    searchParts accepts ps text = true ↔ MatchesFrom ps text := by
  induction ps generalizing text with
  | nil => exact absurd rfl hps
  | cons p ps ih =>
      cases ps with
      | nil =>
          rw [searchParts_last, MatchesFrom]
          constructor
          · rintro ⟨hend, hinfix⟩
            have hlen := hinfix.length_le
            have hwhole := (haccepts p (hlen.trans hsuffix.length_le)).mp hend
            exact List.suffix_of_suffix_length_le hwhole hsuffix hlen
          · intro hend
            have hlen := (hend.trans hsuffix).length_le
            exact ⟨(haccepts p hlen).mpr (hend.trans hsuffix), hend.isInfix⟩
      | cons q qs =>
          rw [searchParts_cons, matchesFrom_cons_iff]
          refine exists_congr fun found => and_congr_right fun hfound => ?_
          have hfoundSuffix := (of_search_eq_some hfound).1
          exact ih (List.cons_ne_nil q qs)
            ((List.drop_suffix _ _).trans (hfoundSuffix.trans hsuffix))

/-- With the test that the first part stands at the start of the text, the search decides whether
the text matches. -/
theorem searchParts_matches_iff {accepts : List α → Bool} {p q : List α} {ps : List (List α)}
    {text : List α}
    (haccepts : ∀ p, p.length ≤ text.length → (accepts p = true ↔ p <:+ text)) :
    p <+: text ∧ searchParts accepts (p :: q :: ps) text = true ↔
      Matches (p :: q :: ps) text := by
  rw [Matches]
  constructor
  · rintro ⟨⟨rest, rfl⟩, hsearch⟩
    obtain ⟨found, hfound, htail⟩ := (searchParts_cons accepts p q ps _).mp hsearch
    obtain rfl : p ++ rest = found :=
      Option.some.inj ((search_of_start (List.prefix_append p rest)).symm.trans hfound)
    rw [List.drop_left] at htail
    exact ⟨rest, rfl, (searchParts_iff (List.cons_ne_nil q ps) (List.suffix_append p rest)
      haccepts).mp htail⟩
  · rintro ⟨rest, rfl, hrest⟩
    refine ⟨List.prefix_append p rest, (searchParts_cons accepts p q ps _).mpr ⟨_,
      search_of_start (List.prefix_append p rest), ?_⟩⟩
    rw [List.drop_left]
    exact (searchParts_iff (List.cons_ne_nil q ps) (List.suffix_append p rest) haccepts).mpr hrest

end Wildcard
