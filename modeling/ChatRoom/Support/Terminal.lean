import Mathlib.Data.List.TakeWhile
import Mathlib.Tactic.Common

/-!
# Reading what is typed

A program that talks to a terminal reads words, which end at a blank, and lines, of which it takes
no more characters than it has room for.  What it does not take stays in the input and is what the
next read finds.  `blank` and `isEnd` say which characters end a word and a line, and `eof` is what
a read returns when nothing is left.
-/

namespace Terminal

variable {α : Type*}

/-- A word, with the blanks in front of it skipped, and the input behind it. -/
def readWord (blank : α → Bool) (input : List α) : List α × List α :=
  ((input.dropWhile blank).takeWhile (!blank ·), (input.dropWhile blank).dropWhile (!blank ·))

def readChar (eof : α) : List α → α × List α
  | [] => (eof, [])
  | c :: rest => (c, rest)

/-- A line of at most `room` characters, and the input behind it; the character that ends the line
is taken from the input if there was room for it. -/
def readLine (isEnd : α → Bool) (eof : α) : ℕ → List α → List α × List α
  | 0, input => ([], input)
  | room + 1, input =>
      let next := readChar eof input
      if isEnd next.1 then ([], next.2)
      else
        let line := readLine isEnd eof room next.2
        (next.1 :: line.1, line.2)

/-! ## Words -/

variable {blank isEnd : α → Bool} {eof : α}

/-- A blank in front of a word is skipped. -/
theorem readWord_cons_of_blank {c : α} (hc : blank c = true) (input : List α) :
    readWord blank (c :: input) = readWord blank input := by
  rw [readWord, List.dropWhile_cons_of_pos hc, readWord]

/-- A word that is followed by a blank is read. -/
theorem readWord_append {word rest : List α} {c : α} (hword : ∀ c ∈ word, blank c = false)
    (hne : word ≠ []) (hc : blank c = true) :
    readWord blank (word ++ c :: rest) = (word, c :: rest) := by
  have hskip : (word ++ c :: rest).dropWhile blank = word ++ c :: rest := by
    obtain ⟨first, others, rfl⟩ := List.exists_cons_of_ne_nil hne
    rw [List.cons_append, List.dropWhile_cons_of_neg]
    simpa using hword first List.mem_cons_self
  have hall : ∀ c ∈ word, (!blank c) = true := fun c hmem => by rw [hword c hmem]; rfl
  have htaken : (c :: rest).takeWhile (!blank ·) = [] := by simp [hc]
  have hleft : (c :: rest).dropWhile (!blank ·) = c :: rest := by simp [hc]
  rw [readWord, hskip, List.takeWhile_append_of_pos hall, htaken,
    List.dropWhile_append_of_pos hall, hleft, List.append_nil]

theorem readWord_suffix (blank : α → Bool) (input : List α) :
    (readWord blank input).2 <:+ input :=
  (List.dropWhile_suffix _).trans (List.dropWhile_suffix _)

/-- Reading a word uses up some of the input. -/
theorem length_readWord_lt {input : List α} (h : input ≠ []) :
    (readWord blank input).2.length < input.length := by
  obtain ⟨c, rest, rfl⟩ := List.exists_cons_of_ne_nil h
  cases hc : blank c with
  | true =>
      have hle := (readWord_suffix blank rest).length_le
      rw [readWord, List.dropWhile_cons_of_pos hc]
      exact Nat.lt_succ_of_le hle
  | false =>
      have hle := (List.dropWhile_suffix (!blank ·) (l := rest)).length_le
      rw [readWord, List.dropWhile_cons_of_neg (by simp [hc]),
        List.dropWhile_cons_of_pos (by simp [hc])]
      exact Nat.lt_succ_of_le hle

/-! ## Lines -/

theorem readChar_suffix (eof : α) (input : List α) : (readChar eof input).2 <:+ input := by
  cases input with
  | nil => exact List.suffix_refl _
  | cons c rest => exact List.suffix_cons c rest

theorem readLine_suffix (isEnd : α → Bool) (eof : α) (room : ℕ) (input : List α) :
    (readLine isEnd eof room input).2 <:+ input := by
  induction room generalizing input with
  | zero => exact List.suffix_refl _
  | succ room ih =>
      have hnext := readChar_suffix eof input
      rw [readLine]
      split_ifs
      · exact hnext
      · exact (ih _).trans hnext

/-- A line that is too long for the room is cut, and its rest is read by whoever reads next. -/
theorem readLine_append {line rest : List α} {c : α} (hline : ∀ c ∈ line, isEnd c = false)
    (hc : isEnd c = true) (room : ℕ) :
    readLine isEnd eof room (line ++ c :: rest) =
      if line.length < room then (line, rest)
      else (line.take room, line.drop room ++ c :: rest) := by
  induction line generalizing room with
  | nil =>
      cases room with
      | zero => rfl
      | succ room => simp [readLine, readChar, hc]
  | cons first line ih =>
      cases room with
      | zero => rfl
      | succ room =>
          have hfirst := hline first List.mem_cons_self
          have htail := ih (fun c hmem => hline c (List.mem_cons_of_mem _ hmem)) room
          simp only [List.cons_append, readLine, readChar, hfirst, Bool.false_eq_true, if_false,
            htail, List.length_cons, Nat.add_lt_add_iff_right, List.take_succ_cons,
            List.drop_succ_cons]
          split_ifs <;> rfl

end Terminal
