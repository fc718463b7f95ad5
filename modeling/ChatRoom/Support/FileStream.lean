import ChatRoom.Support.Framing

/-!
# Reading a stream up to its end

A stream has entries that are still to be read, and an end-of-file flag.  `fread`
returns as many entries as it is asked for, or fewer at the end, where it sets the
flag.

A loop that reads while the flag is not set, and stops at an empty read, runs its body
once for each record of the stream.  If the last record is full, the flag is still
clear after it, and it takes an empty read to find the end.
-/

namespace FileStream

open Framing

variable {α σ : Type*}

/-- A stream that was opened for reading; the flag is set at the end only. -/
structure Stream (α : Type*) where
  rest : List α
  eof : Bool
  rest_of_eof : eof = true → rest = []

def Stream.fopen (content : List α) : Stream α := ⟨content, false, nofun⟩

/-- `fread` of up to `n` entries. -/
def Stream.fread (fp : Stream α) (n : ℕ) : Stream α × List α where
  fst :=
    { rest := fp.rest.drop n
      eof := fp.eof || decide (fp.rest.length < n)
      rest_of_eof := by
        intro h
        rcases Bool.or_eq_true_iff.mp h with heof | hshort
        · rw [fp.rest_of_eof heof, List.drop_nil]
        · exact List.drop_eq_nil_of_le (of_decide_eq_true hshort).le }
  snd := fp.rest.take n

@[simp] theorem Stream.snd_fread (fp : Stream α) (n : ℕ) : (fp.fread n).2 = fp.rest.take n := rfl

@[simp] theorem Stream.rest_fread (fp : Stream α) (n : ℕ) :
    (fp.fread n).1.rest = fp.rest.drop n := rfl

/-- `while (!feof(fp))`, with an `fread` of `n` entries before the body; an empty read leaves the
loop.  `none` if it has not ended after the given number of turns. -/
def readLoop (n : ℕ) (body : σ → List α → σ) : ℕ → Stream α → σ → Option σ
  | 0, _, _ => none
  | turns + 1, fp, s =>
      if fp.eof then some s
      else
        let read := fp.fread n
        if read.2.length = 0 then some s
        else readLoop n body turns read.1 (body s read.2)

section
variable {n : ℕ} {fp : Stream α} (body : σ → List α → σ)

/-- At the end the loop stops, whether the flag is set or the read is empty. -/
theorem readLoop_of_nil (hrest : fp.rest = []) (turns : ℕ) (s : σ) :
    readLoop n body (turns + 1) fp s = some s := by
  have hempty : (fp.fread n).2.length = 0 := by
    rw [Stream.snd_fread, hrest, List.take_nil, List.length_nil]
  rw [readLoop]
  split_ifs
  · rfl
  · exact if_pos hempty

/-- Before the end it reads one record. -/
theorem readLoop_of_ne_nil (hn : 0 < n) (hrest : fp.rest ≠ []) (turns : ℕ) (s : σ) :
    readLoop n body (turns + 1) fp s =
      readLoop n body turns (fp.fread n).1 (body s (fp.rest.take n)) := by
  have heof : fp.eof ≠ true := fun h => hrest (fp.rest_of_eof h)
  have hread : ¬ (fp.fread n).2.length = 0 := by
    have hpos : 0 < fp.rest.length := List.length_pos_iff.mpr hrest
    rw [Stream.snd_fread, List.length_take]
    omega
  rw [readLoop, if_neg heof]
  exact if_neg hread

/-- The loop takes a turn for each record and one to find the end. -/
theorem readLoop_eq (hn : 0 < n) (turns : ℕ) (fp : Stream α) (s : σ) :
    readLoop n body turns fp s =
      if (cut n fp.rest).length < turns then some ((cut n fp.rest).foldl body s) else none := by
  induction turns generalizing fp s with
  | zero => rfl
  | succ turns ih =>
      by_cases hrest : fp.rest = []
      · rw [readLoop_of_nil body hrest, hrest, cut_nil, List.length_nil,
          if_pos (Nat.succ_pos turns), List.foldl_nil]
      · rw [readLoop_of_ne_nil body hn hrest, ih, Stream.rest_fread, cut_eq_cons hn hrest]
        simp only [List.length_cons, Nat.add_lt_add_iff_right, List.foldl_cons]

end

end FileStream
