import ChatRoom.Support.CString
import Mathlib.Algebra.GroupWithZero.Nat
import Mathlib.Data.List.Basic

/-!
# Statement texts with string literals

`format` is the part of `printf` that the texts use: each `%s` or `%d` stands for
the next argument.  A `Template` is the same text cut at its quoted arguments;
`parse` reads the arguments back by the string-literal rules of SQL, and `scan`
tells whether a text stops inside a literal or an open parenthesis, which makes
it an incomplete statement.
-/

namespace SqlText

open CString

/-- `printf` formatting with already rendered arguments. -/
def format : Bytes → List Bytes → Bytes
  | [], _ => []
  | [c], _ => [c]
  | c :: d :: fmt, args =>
      if c = 37 ∧ (d = 115 ∨ d = 100) then
        match args with
        | [] => format fmt []
        | a :: as => a ++ format fmt as
      else c :: format (d :: fmt) args

/-- Bytes that stand for themselves inside a string literal: no quote and no
backslash. -/
def Plain (a : Bytes) : Prop := 39 ∉ a ∧ 92 ∉ a

instance (a : Bytes) : Decidable (Plain a) :=
  inferInstanceAs (Decidable (39 ∉ a ∧ 92 ∉ a))

theorem plain_cons {b : UInt8} {a : Bytes} :
    Plain (b :: a) ↔ (b ≠ 39 ∧ b ≠ 92) ∧ Plain a := by
  simp only [Plain, List.mem_cons, not_or, ne_eq, eq_comm (a := b)]
  tauto

theorem Plain.take {a : Bytes} (ha : Plain a) (k : ℕ) : Plain (a.take k) :=
  ⟨fun h => ha.1 (List.mem_of_mem_take h), fun h => ha.2 (List.mem_of_mem_take h)⟩

/-! ## Templates -/

/-- A text with quoted arguments: `head`, and after each argument one piece of
`tail`. -/
structure Template where
  head : Bytes
  tail : List Bytes

/-- The text with the arguments in their quotes. -/
def renderFrom (head : Bytes) : List Bytes → List Bytes → Bytes
  | q :: qs, a :: as => head ++ 39 :: (a ++ 39 :: renderFrom q qs as)
  | _, _ => head

def Template.render (t : Template) (args : List Bytes) : Bytes :=
  renderFrom t.head t.tail args

theorem length_renderFrom (head : Bytes) {pieces args : List Bytes}
    (hlen : pieces.length = args.length) :
    (renderFrom head pieces args).length =
      head.length + (pieces.map List.length).sum + (args.map List.length).sum +
        2 * args.length := by
  induction pieces generalizing head args with
  | nil =>
      obtain rfl := List.eq_nil_of_length_eq_zero hlen.symm
      simp [renderFrom]
  | cons q qs ih =>
      cases args with
      | nil => exact absurd hlen (by simp)
      | cons a as =>
          have hrest := ih q (by simpa using hlen)
          simp only [renderFrom, List.length_append, List.length_cons, List.map_cons,
            List.sum_cons, hrest]
          omega

/-- The length of the text around the quoted arguments. -/
def Template.fixedLength (t : Template) : ℕ := t.head.length + (t.tail.map List.length).sum

theorem Template.length_render (t : Template) (args : List Bytes)
    (hlen : t.tail.length = args.length) :
    (t.render args).length =
      t.fixedLength + (args.map List.length).sum + 2 * args.length :=
  length_renderFrom t.head hlen

/-- The bytes that an escape sequence stands for; outside of patterns `\\%` and `\\_` keep their
backslash. -/
def unescape (c : UInt8) : Bytes :=
  if c = 37 ∨ c = 95 then [92, c]
  else if c = 110 then [10] else if c = 116 then [9] else if c = 114 then [13]
  else if c = 48 then [0] else if c = 98 then [8] else if c = 90 then [26] else [c]

/-- Contents of the string literal whose opening quote has been read, and the
text after its closing quote.  A doubled quote stands for one quote. -/
def readLiteral : Bytes → Option (Bytes × Bytes)
  | [] => none
  | [b] => if b = 39 then some ([], []) else none
  | b :: c :: text =>
      if b = 39 then
        if c = 39 then (readLiteral text).map fun r => (39 :: r.1, r.2)
        else some ([], c :: text)
      else if b = 92 then (readLiteral text).map fun r => (unescape c ++ r.1, r.2)
      else (readLiteral (c :: text)).map fun r => (b :: r.1, r.2)

/-- The arguments of a text that follows the template. -/
def parseFrom (head : Bytes) : List Bytes → Bytes → Option (List Bytes)
  | [], text => if text = head then some [] else none
  | q :: qs, text =>
      match text.dropPrefix? head with
      | some (39 :: rest) =>
          (readLiteral rest).bind fun r => (parseFrom q qs r.2).map (r.1 :: ·)
      | _ => none

def Template.parse (t : Template) (text : Bytes) : Option (List Bytes) :=
  parseFrom t.head t.tail text

/-- No piece starts with a quote, and only the last one may be empty. -/
def separated : List Bytes → Bool
  | [] => true
  | [q] => q.head? != some 39
  | q :: r :: qs => q != [] && q.head? != some 39 && separated (r :: qs)

theorem separated_tail {q : Bytes} {qs : List Bytes} (h : separated (q :: qs) = true) :
    separated qs = true := by
  cases qs with
  | nil => rfl
  | cons r qs =>
      simp only [separated, Bool.and_eq_true] at h
      exact h.2

theorem head?_renderFrom {q : Bytes} {qs : List Bytes}
    (h : separated (q :: qs) = true) (args : List Bytes) :
    (renderFrom q qs args).head? ≠ some 39 := by
  cases qs with
  | nil => simpa [separated, renderFrom] using h
  | cons r qs =>
      simp only [separated, Bool.and_eq_true, bne_iff_ne] at h
      obtain ⟨⟨hne, hquote⟩, -⟩ := h
      cases q with
      | nil => exact absurd rfl hne
      | cons c q => cases args <;> simpa [renderFrom] using hquote

/-! ## Incomplete statements -/

/-- Where a scan from the left stands: in code or in a literal, at some depth of
parentheses, behind a backslash, or after a character (a comment sign or another
kind of quote) that this scan does not follow. -/
inductive Lex where
  | code (depth : ℕ)
  | literal (depth : ℕ)
  | escape (depth : ℕ)
  | other
deriving DecidableEq

def Lex.next : Lex → UInt8 → Lex
  | code d, b =>
      if b = 39 then literal d
      else if b = 40 then code (d + 1)
      else if b = 41 then code (d - 1)
      else if b ∈ [34, 35, 45, 47, 96] then other
      else code d
  | literal d, b => if b = 39 then code d else if b = 92 then escape d else literal d
  | escape d, _ => literal d
  | other, _ => other

def scan (st : Lex) (text : Bytes) : Lex := text.foldl Lex.next st

/-- The text stops inside a literal or an open parenthesis. -/
def unfinished (text : Bytes) : Bool :=
  match scan (.code 0) text with
  | .code 0 => false
  | .other => false
  | _ => true

theorem unfinished_eq_false {text : Bytes} (h : scan (.code 0) text = .code 0) :
    unfinished text = false := by
  simp [unfinished, h]

theorem unfinished_eq_true {text : Bytes} {d : ℕ}
    (h : scan (.code 0) text ∈ [.code (d + 1), .literal (d + 1)]) :
    unfinished text = true := by
  rcases List.mem_pair.mp h with h | h <;> simp [unfinished, h]

@[simp] theorem scan_nil (st : Lex) : scan st [] = st := rfl

theorem scan_append (st : Lex) (a b : Bytes) : scan st (a ++ b) = scan (scan st a) b :=
  List.foldl_append

theorem scan_literal {a : Bytes} (ha : Plain a) (d : ℕ) :
    scan (.literal d) a = .literal d := by
  induction a with
  | nil => rfl
  | cons b a ih =>
      obtain ⟨⟨hquote, hslash⟩, ha⟩ := plain_cons.mp ha
      simpa [scan, Lex.next, hquote, hslash] using ih ha

/-- A scan that starts with `head` finds every argument in code and ends outside all
parentheses. -/
def closesFrom (st : Lex) (head : Bytes) : List Bytes → Bool
  | [] => scan st head = .code 0
  | q :: qs =>
      match scan st head with
      | .code d => closesFrom (.code d) q qs
      | _ => false

def Template.closes (t : Template) : Bool := closesFrom (.code 0) t.head t.tail

/-- The scan of every proper beginning of the text ends inside a literal or at the
depth where it started. -/
def StaysOpen (d : ℕ) (text : Bytes) : Prop :=
  ∀ k < text.length, scan (.code d) (text.take k) ∈ [.code d, .literal d]

theorem staysOpen_singleton (d : ℕ) (b : UInt8) : StaysOpen d [b] := by
  intro k hk
  have hzero : k = 0 := by simpa using hk
  simp [hzero]

theorem StaysOpen.cons {d : ℕ} {b : UInt8} {rest : Bytes}
    (hb : (Lex.code d).next b = .code d) (h : StaysOpen d rest) :
    StaysOpen d (b :: rest) := by
  intro k hk
  rcases k with - | k
  · simp
  · have hscan : scan (.code d) ((b :: rest).take (k + 1)) = scan (.code d) (rest.take k) := by
      rw [List.take_succ_cons, scan, List.foldl_cons, hb]
      rfl
    rw [hscan]
    exact h k (by simpa using hk)

theorem StaysOpen.quoted {d : ℕ} {a rest : Bytes} (ha : Plain a) (h : StaysOpen d rest) :
    StaysOpen d (39 :: (a ++ 39 :: rest)) := by
  intro k hk
  rcases k with - | k
  · simp
  · change scan (.literal d) ((a ++ 39 :: rest).take k) ∈ _
    simp only [List.length_cons, List.length_append] at hk
    rw [List.take_append, scan_append]
    rcases Nat.le_total k a.length with hle | hle
    · rw [scan_literal (ha.take k), Nat.sub_eq_zero_of_le hle]
      simp
    · rw [List.take_of_length_le hle, scan_literal ha]
      rcases hj : k - a.length with - | j
      · simp
      · exact h j (by omega)

/-- A statement that is cut behind an open parenthesis is incomplete. -/
theorem unfinished_take {d : ℕ} {head values : Bytes} (hhead : scan (.code 0) head = .code (d + 1))
    (hvalues : StaysOpen (d + 1) values) {k : ℕ} (hk : head.length ≤ k)
    (hlen : k < (head ++ values).length) : unfinished ((head ++ values).take k) = true := by
  rw [List.length_append] at hlen
  rw [List.take_append, List.take_of_length_le hk]
  apply unfinished_eq_true (d := d)
  rw [scan_append, hhead]
  exact hvalues (k - head.length) (by omega)

end SqlText
