import ChatRoom.Support.SqlText

/-!
# Texts that read back as themselves

Arguments that are pasted into a statement are read back as they are exactly if their quotes and
backslashes mean nothing to the reader of the literal, and the text is not cut.  The reader never
returns more bytes than it has read, so that a comparison of lengths decides.
-/

namespace SqlText

open CString

/-- No quote, and no backslash but in `\%` and `\_`: a literal with this text stands for it. -/
def verbatim : Bytes → Bool
  | [] => true
  | [b] => b ≠ 39 && b ≠ 92
  | b :: c :: a =>
      if b = 92 then (c = 37 || c = 95) && verbatim a else b ≠ 39 && verbatim (c :: a)

/-- Without a quote, without a backslash. -/
theorem verbatim_cons {b : UInt8} (hquote : b ≠ 39) (hslash : b ≠ 92) (a : Bytes) :
    verbatim (b :: a) = verbatim a := by
  cases a with
  | nil => simp [verbatim, hquote, hslash]
  | cons c a => simp [verbatim, hquote, hslash]

theorem verbatim_of_plain {a : Bytes} (ha : Plain a) : verbatim a = true := by
  induction a with
  | nil => rfl
  | cons b a ih =>
      obtain ⟨⟨hquote, hslash⟩, ha⟩ := plain_cons.mp ha
      rw [verbatim_cons hquote hslash]
      exact ih ha

/-! ## One literal -/

theorem length_unescape (c : UInt8) :
    (unescape c).length = 1 ∨ (unescape c = [92, c] ∧ (c = 37 ∨ c = 95)) := by
  rw [unescape]
  by_cases hpattern : c = 37 ∨ c = 95
  · exact .inr ⟨if_pos hpattern, hpattern⟩
  · rw [if_neg hpattern]
    left
    split_ifs <;> rfl

/-- The closing quote, which is not doubled. -/
theorem readLiteral_nil {rest : Bytes} (hrest : rest.head? ≠ some 39) :
    readLiteral (39 :: rest) = some ([], rest) := by
  rcases rest with - | ⟨c, rest⟩
  · rfl
  · have hc : c ≠ 39 := fun h => hrest (by rw [h]; rfl)
    simp [readLiteral, hc]

/-- A verbatim text is read back. -/
theorem readLiteral_verbatim {a rest : Bytes} (ha : verbatim a = true)
    (hrest : rest.head? ≠ some 39) : readLiteral (a ++ 39 :: rest) = some (a, rest) := by
  induction a using verbatim.induct with
  | case1 => exact readLiteral_nil hrest
  | case2 b =>
      simp only [verbatim, Bool.and_eq_true, decide_eq_true_eq] at ha
      simp [readLiteral, ha, readLiteral_nil hrest]
  | case3 c a ih =>
      simp only [verbatim, reduceIte, Bool.and_eq_true, Bool.or_eq_true, decide_eq_true_eq] at ha
      obtain ⟨hpattern, ha⟩ := ha
      have hkept : unescape c = [92, c] := if_pos hpattern
      simp [readLiteral, ih ha, hkept]
  | case4 b c a hslash ih =>
      simp only [verbatim, if_neg hslash, Bool.and_eq_true, decide_eq_true_eq] at ha
      obtain ⟨hquote, ha⟩ := ha
      have htail := ih ha
      simp only [List.cons_append] at htail ⊢
      simp [readLiteral, hquote, hslash, htail]

/-- Plain bytes in front of a literal are taken over. -/
theorem readLiteral_plain_append {a text : Bytes} (ha : Plain a) (htext : text ≠ []) :
    readLiteral (a ++ text) = (readLiteral text).map fun r => (a ++ r.1, r.2) := by
  induction a with
  | nil => simp
  | cons b a ih =>
      obtain ⟨⟨hquote, hslash⟩, ha⟩ := plain_cons.mp ha
      obtain ⟨c, behind, hc⟩ := List.exists_cons_of_ne_nil
        (List.append_ne_nil_of_right_ne_nil a htext)
      have htail := ih ha
      rw [hc] at htail
      rw [List.cons_append, hc]
      simp [readLiteral, hquote, hslash, htail, Option.map_map, Function.comp_def]

/-- The reader of a literal returns at most what it has read, and only verbatim texts come back in
full length. -/
theorem length_readLiteral {text : Bytes} {r : Bytes × Bytes} (h : readLiteral text = some r) :
    r.1.length + r.2.length + 1 ≤ text.length ∧
      (r.1.length + r.2.length + 1 = text.length →
        text = r.1 ++ 39 :: r.2 ∧ verbatim r.1 = true) := by
  induction text using readLiteral.induct generalizing r with
  | case1 => simp [readLiteral] at h
  | case2 =>
      simp only [readLiteral, reduceIte, Option.some.injEq] at h
      subst h
      simp [verbatim]
  | case3 b hquote => simp [readLiteral, hquote] at h
  | case4 text ih =>
      -- a doubled quote: one byte for two
      simp only [readLiteral, reduceIte, Option.map_eq_some_iff] at h
      obtain ⟨r', hr', rfl⟩ := h
      have hle := (ih hr').1
      simp only [List.length_cons]
      exact ⟨by omega, fun heq => by omega⟩
  | case5 c text hquote =>
      simp only [readLiteral, reduceIte, if_neg hquote, Option.some.injEq] at h
      subst h
      simp [verbatim]
  | case6 c text hquote ih =>
      simp only [readLiteral, if_neg hquote, reduceIte, Option.map_eq_some_iff] at h
      obtain ⟨r', hr', rfl⟩ := h
      obtain ⟨hle, hfull⟩ := ih hr'
      rcases length_unescape c with hone | ⟨hkept, hpattern⟩
      · simp only [List.length_append, List.length_cons, hone]
        exact ⟨by omega, fun heq => by omega⟩
      · simp only [hkept, List.length_append, List.length_cons, List.length_nil]
        refine ⟨by omega, fun heq => ?_⟩
        obtain ⟨rfl, hverbatim⟩ := hfull (by omega)
        refine ⟨by simp, ?_⟩
        simp [verbatim, hpattern, hverbatim]
  | case7 b c text hquote hslash ih =>
      simp only [readLiteral, if_neg hquote, if_neg hslash, Option.map_eq_some_iff] at h
      obtain ⟨r', hr', rfl⟩ := h
      obtain ⟨hle, hfull⟩ := ih hr'
      simp only [List.length_cons] at hle hfull ⊢
      refine ⟨by omega, fun heq => ?_⟩
      obtain ⟨htext, hverbatim⟩ := hfull (by omega)
      refine ⟨by rw [htext, List.cons_append], ?_⟩
      rw [verbatim_cons hquote hslash, hverbatim]

/-- Behind a literal the scan is back in code. -/
theorem scan_of_readLiteral {text : Bytes} {r : Bytes × Bytes} (d : ℕ)
    (h : readLiteral text = some r) : scan (.literal d) text = scan (.code d) r.2 := by
  induction text using readLiteral.induct generalizing r with
  | case1 => simp [readLiteral] at h
  | case2 =>
      simp only [readLiteral, reduceIte, Option.some.injEq] at h
      subst h
      rfl
  | case3 b hquote => simp [readLiteral, hquote] at h
  | case4 text ih =>
      simp only [readLiteral, reduceIte, Option.map_eq_some_iff] at h
      obtain ⟨r', hr', rfl⟩ := h
      have hbehind := ih hr'
      exact hbehind
  | case5 c text hquote =>
      simp only [readLiteral, reduceIte, if_neg hquote, Option.some.injEq] at h
      subst h
      rfl
  | case6 c text hquote ih =>
      simp only [readLiteral, if_neg hquote, reduceIte, Option.map_eq_some_iff] at h
      obtain ⟨r', hr', rfl⟩ := h
      have hbehind := ih hr'
      exact hbehind
  | case7 b c text hquote hslash ih =>
      simp only [readLiteral, if_neg hquote, if_neg hslash, Option.map_eq_some_iff] at h
      obtain ⟨r', hr', rfl⟩ := h
      have hstays : scan (.literal d) (b :: c :: text) = scan (.literal d) (c :: text) := by
        simp [scan, Lex.next, hquote, hslash]
      rw [hstays]
      have hbehind := ih hr'
      exact hbehind

/-- What is left behind a literal is the end of what was read. -/
theorem suffix_of_readLiteral {text : Bytes} {r : Bytes × Bytes} (h : readLiteral text = some r) :
    39 :: r.2 <:+ text := by
  induction text using readLiteral.induct generalizing r with
  | case1 => simp [readLiteral] at h
  | case2 =>
      simp only [readLiteral, reduceIte, Option.some.injEq] at h
      subst h
      exact List.suffix_refl _
  | case3 b hquote => simp [readLiteral, hquote] at h
  | case4 text ih =>
      simp only [readLiteral, reduceIte, Option.map_eq_some_iff] at h
      obtain ⟨r', hr', rfl⟩ := h
      exact (ih hr').trans ((List.suffix_cons _ _).trans (List.suffix_cons _ _))
  | case5 c text hquote =>
      simp only [readLiteral, reduceIte, if_neg hquote, Option.some.injEq] at h
      subst h
      exact List.suffix_refl _
  | case6 c text hquote ih =>
      simp only [readLiteral, if_neg hquote, reduceIte, Option.map_eq_some_iff] at h
      obtain ⟨r', hr', rfl⟩ := h
      exact (ih hr').trans ((List.suffix_cons _ _).trans (List.suffix_cons _ _))
  | case7 b c text hquote hslash ih =>
      simp only [readLiteral, if_neg hquote, if_neg hslash, Option.map_eq_some_iff] at h
      obtain ⟨r', hr', rfl⟩ := h
      exact (ih hr').trans (List.suffix_cons _ _)

/-- Only the closing quote stands for nothing. -/
theorem eq_of_readLiteral_nil {text rest : Bytes} (h : readLiteral text = some ([], rest)) :
    text = 39 :: rest := by
  cases text using readLiteral.fun_cases with
  | case1 => simp [readLiteral] at h
  | case2 => simpa [readLiteral] using h
  | case3 b hquote => simp [readLiteral, hquote] at h
  | case4 text => simp [readLiteral] at h
  | case5 c text hquote => simpa [readLiteral, hquote] using h
  | case6 c text hquote =>
      have hsome : unescape c ≠ [] := fun hnil => by
        have hlen := length_unescape c
        simp [hnil] at hlen
      simp [readLiteral, hquote, hsome] at h
  | case7 b c text hquote hslash => simp [readLiteral, hquote, hslash] at h

/-- A verbatim text that is cut leaves its literal open. -/
theorem scan_take_verbatim {a : Bytes} (ha : verbatim a = true) (d k : ℕ) :
    scan (.literal d) (a.take k) ∈ [.literal d, .escape d] := by
  induction a using verbatim.induct generalizing k with
  | case1 => simp
  | case2 b =>
      simp only [verbatim, Bool.and_eq_true, decide_eq_true_eq] at ha
      rcases k with - | k <;> simp [scan, Lex.next, ha]
  | case3 c a ih =>
      simp only [verbatim, reduceIte, Bool.and_eq_true] at ha
      rcases k with - | - | k
      · simp
      · simp [scan, Lex.next]
      · exact ih ha.2 k
  | case4 b c a hslash ih =>
      simp only [verbatim, if_neg hslash, Bool.and_eq_true, decide_eq_true_eq] at ha
      rcases k with - | k
      · simp
      · have hstays : (Lex.literal d).next b = .literal d := by simp [Lex.next, ha.1, hslash]
        rw [List.take_succ_cons, scan, List.foldl_cons, hstays]
        exact ih ha.2 k

/-! ## Whole texts -/

theorem eq_of_dropPrefix?_eq_some {head text rest : Bytes} (h : text.dropPrefix? head = some rest) :
    text = head ++ rest := by
  obtain ⟨head', htext, hbeq⟩ := List.dropPrefix?_eq_some_iff.mp h
  rw [htext, eq_of_beq hbeq]

/-- What a text that follows a template consists of. -/
theorem parseFrom_cons {head q text : Bytes} {qs args : List Bytes}
    (h : parseFrom head (q :: qs) text = some args) :
    ∃ rest r as, text = head ++ 39 :: rest ∧ readLiteral rest = some r ∧
      parseFrom q qs r.2 = some as ∧ args = r.1 :: as := by
  rw [parseFrom] at h
  split at h
  · rename_i rest hdrop
    obtain ⟨r, hr, h⟩ := Option.bind_eq_some_iff.mp h
    obtain ⟨as, has, rfl⟩ := Option.map_eq_some_iff.mp h
    exact ⟨rest, r, as, eq_of_dropPrefix?_eq_some hdrop, hr, has, rfl⟩
  · exact absurd h (by simp)

/-- A text that starts like the template and goes on with a literal. -/
theorem parseFrom_append {head q rest : Bytes} {qs as : List Bytes} {r : Bytes × Bytes}
    (hread : readLiteral rest = some r) (htail : parseFrom q qs r.2 = some as) :
    parseFrom head (q :: qs) (head ++ 39 :: rest) = some (r.1 :: as) := by
  have hdrop : (head ++ 39 :: rest).dropPrefix? head = some (39 :: rest) := by
    rw [List.dropPrefix?_append_of_beq]
    simp
  rw [parseFrom, hdrop]
  simp only [hread, Option.bind_some, htail, Option.map_some]

theorem parseFrom_nil {head text : Bytes} {args : List Bytes}
    (h : parseFrom head [] text = some args) : text = head ∧ args = [] := by
  rw [parseFrom] at h
  obtain ⟨htext, hargs⟩ := Option.ite_none_right_eq_some.mp h
  exact ⟨htext, (Option.some.inj hargs).symm⟩

/-- The arguments that are read from a text never make a longer text, and they make one of the
same length only if they are verbatim and make the same text. -/
theorem length_parseFrom {head text : Bytes} {pieces args : List Bytes}
    (h : parseFrom head pieces text = some args) :
    (renderFrom head pieces args).length ≤ text.length ∧
      ((renderFrom head pieces args).length = text.length →
        text = renderFrom head pieces args ∧ ∀ a ∈ args, verbatim a = true) := by
  induction pieces generalizing head text args with
  | nil =>
      obtain ⟨rfl, rfl⟩ := parseFrom_nil h
      simp [renderFrom]
  | cons q qs ih =>
      obtain ⟨rest, ⟨a, behind⟩, as, rfl, hliteral, hrest, rfl⟩ := parseFrom_cons h
      dsimp only at hrest
      obtain ⟨hle, hfull⟩ := length_readLiteral hliteral
      obtain ⟨hle', hfull'⟩ := ih hrest
      simp only [renderFrom, List.length_append, List.length_cons] at hle hfull ⊢
      refine ⟨by omega, fun heq => ?_⟩
      obtain ⟨hbehind, hargs⟩ := hfull' (by omega)
      obtain ⟨hrestText, hverbatim⟩ := hfull (by omega)
      exact ⟨by rw [hrestText, ← hbehind], List.forall_mem_cons.mpr ⟨hverbatim, hargs⟩⟩

theorem length_eq_of_parseFrom {head text : Bytes} {pieces args : List Bytes}
    (h : parseFrom head pieces text = some args) : args.length = pieces.length := by
  induction pieces generalizing head text args with
  | nil => rw [(parseFrom_nil h).2]
  | cons q qs ih =>
      obtain ⟨rest, r, as, -, -, hrest, rfl⟩ := parseFrom_cons h
      rw [List.length_cons, List.length_cons, ih hrest]

/-- Verbatim arguments are read back from the text they were put into. -/
theorem parseFrom_renderFrom {pieces args : List Bytes} (head : Bytes)
    (hlen : pieces.length = args.length) (hpieces : separated pieces = true)
    (hargs : ∀ a ∈ args, verbatim a = true) :
    parseFrom head pieces (renderFrom head pieces args) = some args := by
  induction pieces generalizing head args with
  | nil =>
      obtain rfl := List.eq_nil_of_length_eq_zero hlen.symm
      simp [parseFrom, renderFrom]
  | cons q qs ih =>
      rcases args with - | ⟨a, as⟩
      · exact absurd hlen (by simp)
      · obtain ⟨ha, has⟩ := List.forall_mem_cons.mp hargs
        have htail := ih q (by simpa using hlen) (separated_tail hpieces) has
        have hliteral := readLiteral_verbatim ha (head?_renderFrom hpieces as)
        have hdrop : (renderFrom head (q :: qs) (a :: as)).dropPrefix? head =
            some (39 :: (a ++ 39 :: renderFrom q qs as)) := by
          rw [renderFrom, List.dropPrefix?_append_of_beq]
          simp
        rw [parseFrom, hdrop]
        simp only [hliteral, Option.bind_some, htail, Option.map_some]

/-- A text that follows a template starts with its head. -/
theorem prefix_of_parseFrom {head text : Bytes} {pieces args : List Bytes}
    (h : parseFrom head pieces text = some args) : head <+: text := by
  cases pieces with
  | nil => exact (parseFrom_nil h).1 ▸ List.prefix_refl head
  | cons q qs =>
      obtain ⟨rest, -, -, rfl, -⟩ := parseFrom_cons h
      exact List.prefix_append head _

theorem scan_of_parseFrom {st : Lex} {head text : Bytes} {pieces args : List Bytes}
    (hcloses : closesFrom st head pieces = true) (h : parseFrom head pieces text = some args) :
    scan st text = .code 0 := by
  induction pieces generalizing st head text args with
  | nil =>
      obtain ⟨rfl, -⟩ := parseFrom_nil h
      exact of_decide_eq_true hcloses
  | cons q qs ih =>
      obtain ⟨rest, r, as, rfl, hliteral, hrest, -⟩ := parseFrom_cons h
      rw [closesFrom] at hcloses
      split at hcloses
      · rename_i d hhead
        have hopen : scan (.code d) (39 :: rest) = scan (.literal d) rest := rfl
        rw [scan_append, hhead, hopen, scan_of_readLiteral d hliteral]
        exact ih hcloses hrest
      · exact absurd hcloses (by simp)

namespace Template

variable (t : Template)

/-- The text breaks off, or it follows the template: a reader of the template can tell what the
text says. -/
def Legible (text : Bytes) : Prop := unfinished text = true ∨ (t.parse text).isSome

/-- A text that follows a closing template is a complete statement. -/
theorem unfinished_of_parse {text : Bytes} {args : List Bytes} (hcloses : t.closes = true)
    (h : t.parse text = some args) : unfinished text = false :=
  unfinished_eq_false (scan_of_parseFrom hcloses h)

/-- A template reads back its own arguments when they are plain. -/
theorem parse_render (args : List Bytes) (hlen : t.tail.length = args.length)
    (hpieces : separated t.tail = true) (hargs : ∀ a ∈ args, Plain a) :
    t.parse (t.render args) = some args :=
  parseFrom_renderFrom t.head hlen hpieces fun a ha => verbatim_of_plain (hargs a ha)

/-- A text follows at most one of two templates of which neither starts like the other. -/
theorem parse_eq_none {text : Bytes} {args : List Bytes}
    (t' : Template) (hheads : ¬ t.head <+: t'.head ∧ ¬ t'.head <+: t.head)
    (h : t.parse text = some args) :
    t'.parse text = none := by
  by_contra hparse
  obtain ⟨args', hargs'⟩ := Option.ne_none_iff_exists'.mp hparse
  rcases List.prefix_or_prefix_of_prefix (prefix_of_parseFrom h) (prefix_of_parseFrom hargs') with
    hstarts | hstarts
  · exact hheads.1 hstarts
  · exact hheads.2 hstarts

/-- As many arguments are read as the template has places for. -/
theorem length_of_parse {text : Bytes} {args : List Bytes} (h : t.parse text = some args) :
    args.length = t.tail.length :=
  length_eq_of_parseFrom h

theorem eq_singleton_of_parse {text : Bytes} {args : List Bytes} (hone : t.tail.length = 1)
    (h : t.parse text = some args) : ∃ a, args = [a] :=
  List.length_eq_one_iff.mp ((t.length_of_parse h).trans hone)

theorem eq_pair_of_parse {text : Bytes} {args : List Bytes} (htwo : t.tail.length = 2)
    (h : t.parse text = some args) : ∃ a b, args = [a, b] :=
  List.length_eq_two.mp ((t.length_of_parse h).trans htwo)

/-- What is read from a buffer is no longer than what was written into it. -/
theorem length_le_of_parse_snprintf {args args' : List Bytes} {n : ℕ}
    (h : t.parse (snprintf n (t.render args)) = some args') :
    (t.render args').length ≤ (t.render args).length := by
  have hle := (length_parseFrom h).1
  rw [length_snprintf] at hle
  exact hle.trans (min_le_right _ _)

/-- A template reads its own arguments back from a buffer exactly if they are verbatim and fit. -/
theorem parse_snprintf_iff (args : List Bytes) (n : ℕ) (hn : 0 < n)
    (hlen : t.tail.length = args.length) (hpieces : separated t.tail = true) :
    t.parse (snprintf n (t.render args)) = some args ↔
      (∀ a ∈ args, verbatim a = true) ∧ (t.render args).length < n := by
  constructor
  · intro h
    obtain ⟨hle, hfull⟩ := length_parseFrom h
    have hrender : renderFrom t.head t.tail args = t.render args := rfl
    rw [hrender, length_snprintf] at hle hfull
    exact ⟨(hfull (by omega)).2, by omega⟩
  · rintro ⟨hverbatim, hfits⟩
    rw [snprintf_eq_self hfits]
    exact parseFrom_renderFrom t.head hlen hpieces hverbatim

end Template

end SqlText
