import ChatRoom.Support.CString
import Mathlib.Algebra.Order.Floor.Ring
import Mathlib.Algebra.Order.Ring.Rat
import Mathlib.Data.Rat.Floor

/-!
# Numbers in texts

How `atoi` and `scanf` read decimal numbers, and how `printf` writes them.  A `double` stands for
its exact value.
-/

namespace ChatRoom

open CString

/-! ## Reading -/

def isspace (b : UInt8) : Bool := b = 32 || (9 ≤ b && b ≤ 13)

def isdigit (b : UInt8) : Bool := 48 ≤ b && b ≤ 57

/-- The value of a row of decimal digits behind the number `n`. -/
def readDigits (n : ℕ) (digits : Bytes) : ℕ :=
  digits.foldl (fun value d => 10 * value + (d.toNat - 48)) n

/-- `atoi`, on the memory from the start of the text on. -/
def atoi (memory : Bytes) : ℤ :=
  match memory.dropWhile isspace with
  | 45 :: rest => -(readDigits 0 (rest.takeWhile isdigit) : ℤ)
  | 43 :: rest => readDigits 0 (rest.takeWhile isdigit)
  | rest => readDigits 0 (rest.takeWhile isdigit)

def scanDigits (text : Bytes) : Option ℕ :=
  match text.takeWhile isdigit with
  | [] => none
  | digits => some (readDigits 0 digits)

/-- The number that `scanf` finds for `%d`, if there is one. -/
def scanNumber (typed : Bytes) : Option ℤ :=
  match typed.dropWhile isspace with
  | 45 :: rest => (scanDigits rest).map fun n => -(n : ℤ)
  | 43 :: rest => (scanDigits rest).map Int.ofNat
  | rest => (scanDigits rest).map Int.ofNat

theorem le_readDigits (n : ℕ) (digits : Bytes) : n ≤ readDigits n digits := by
  induction digits generalizing n with
  | nil => exact le_refl n
  | cons d ds ih =>
      have hstep : n ≤ 10 * n + (d.toNat - 48) := by omega
      exact hstep.trans (ih _)

/-- A number that starts with the digit 1 is not zero. -/
theorem atoi_one_ne_zero (rest : Bytes) : atoi (49 :: rest) ≠ 0 := by
  have hvalue : atoi (49 :: rest) = readDigits 1 (rest.takeWhile isdigit) := rfl
  have hpos := le_readDigits 1 (rest.takeWhile isdigit)
  rw [hvalue]
  omega

/-- What an `int` gets of a number: `strtol` cuts it to a `long`, whose lower half remains. -/
def intOf (z : ℤ) : ℤ := (max (-2 ^ 63) (min z (2 ^ 63 - 1))).bmod (2 ^ 32)

theorem intOf_eq {z : ℤ} (hlow : -2 ^ 31 ≤ z) (hhigh : z < 2 ^ 31) : intOf z = z := by
  have hlong : max (-2 ^ 63) (min z (2 ^ 63 - 1)) = z := by omega
  rw [intOf, hlong]
  apply Int.bmod_eq_of_le <;> omega

/-- What `scanf` leaves in an `int` for `%d`: where it finds no number, what was there before. -/
def scanf (typed : Bytes) (old : ℤ) : ℤ := ((scanNumber typed).map intOf).getD old

/-- A number in the range of `int` is stored as it is. -/
theorem scanf_of_number {typed : Bytes} {z : ℤ} (h : scanNumber typed = some z)
    (hlow : -2 ^ 31 ≤ z) (hhigh : z < 2 ^ 31) (old : ℤ) : scanf typed old = z := by
  rw [scanf, h, Option.map_some, Option.getD_some, intOf_eq hlow hhigh]

/-! ## Writing -/

/-- The character of a decimal digit. -/
def digit (d : ℕ) : UInt8 := UInt8.ofNat (48 + d)

/-- A number in the format `%d`. -/
def decimal (n : ℕ) : Bytes := (Nat.toDigits 10 n).map fun c => UInt8.ofNat c.toNat

/-- A number with its sign in the format `%d`. -/
def formatInt : ℤ → Bytes
  | .ofNat n => decimal n
  | .negSucc n => 45 :: decimal (n + 1)

/-- A finite `double` that is not the negative zero: a number of at most 53 bits, scaled by a power
of two. -/
structure Double where
  value : ℚ
  finite : ∃ m e : ℤ, |m| < 2 ^ 53 ∧ -1074 ≤ e ∧ e ≤ 971 ∧ value = m * 2 ^ e

/-- The number of hundredths nearest to an amount without its sign, and an even one between two. -/
def hundredths (q : ℚ) : ℕ :=
  let x := |q| * 100
  let low := ⌊x⌋.toNat
  if x - low < 1 / 2 then low else if 1 / 2 < x - low then low + 1 else low + low % 2

/-- `%.2f`. -/
def formatFixed2 (d : Double) : Bytes :=
  let h := hundredths d.value
  (if d.value < 0 then [45] else []) ++
    (decimal (h / 100) ++ 46 :: [digit (h / 10 % 10), digit (h % 10)])

theorem digit_facts : ∀ d < 10, UInt8.ofNat (Nat.digitChar d).toNat = digit d ∧
    (digit d).toNat = 48 + d ∧ isdigit (digit d) = true := by
  decide

theorem decimal_digit {n : ℕ} (h : n < 10) : decimal n = [digit n] := by
  rw [decimal, Nat.toDigits_of_lt_base h]
  exact congrArg (fun b => [b]) (digit_facts n h).1

theorem decimal_snoc {n : ℕ} (h : 10 ≤ n) :
    decimal n = decimal (n / 10) ++ [digit (n % 10)] := by
  rw [decimal, Nat.toDigits_of_base_le (by decide) h, List.map_append]
  exact congrArg (fun b => decimal (n / 10) ++ [b]) (digit_facts _ (Nat.mod_lt n (by decide))).1

theorem length_decimal_le_iff {n k : ℕ} (hk : 0 < k) : (decimal n).length ≤ k ↔ n < 10 ^ k := by
  rw [decimal, List.length_map]
  exact Nat.length_toDigits_le_iff (by decide) hk

/-- Induction on a number by its digits. -/
theorem decimal_induction {motive : ℕ → Prop} (one : ∀ n < 10, motive n)
    (more : ∀ n, 10 ≤ n → motive (n / 10) → motive n) (n : ℕ) : motive n := by
  induction n using Nat.strong_induction_on with
  | _ n ih =>
      rcases Nat.lt_or_ge n 10 with h | h
      · exact one n h
      · exact more n h (ih (n / 10) (by omega))

theorem isdigit_of_mem_decimal {n : ℕ} {b : UInt8} (h : b ∈ decimal n) : isdigit b = true := by
  induction n using decimal_induction with
  | one n hn =>
      rw [decimal_digit hn, List.mem_singleton] at h
      exact h ▸ (digit_facts n hn).2.2
  | more n hn ih =>
      rw [decimal_snoc hn, List.mem_append, List.mem_singleton] at h
      rcases h with h | rfl
      · exact ih h
      · exact (digit_facts _ (Nat.mod_lt n (by decide))).2.2

theorem readDigits_append (n : ℕ) (a b : Bytes) :
    readDigits n (a ++ b) = readDigits (readDigits n a) b :=
  List.foldl_append

theorem readDigits_digit (n : ℕ) {d : ℕ} (h : d < 10) : readDigits n [digit d] = 10 * n + d := by
  simp [readDigits, (digit_facts d h).2.1]

/-- A number is read as it was written. -/
theorem readDigits_decimal (n : ℕ) : readDigits 0 (decimal n) = n := by
  induction n using decimal_induction with
  | one n hn => rw [decimal_digit hn, readDigits_digit 0 hn, Nat.mul_zero, Nat.zero_add]
  | more n hn ih =>
      rw [decimal_snoc hn, readDigits_append, ih, readDigits_digit _ (Nat.mod_lt n (by decide))]
      omega

/-! ## Numbers between other texts -/

/-- A row of digits ends where no digit follows. -/
theorem span_digits {digits rest : Bytes} (hdigits : ∀ b ∈ digits, isdigit b = true)
    (hrest : ∀ b ∈ rest.head?, isdigit b = false) :
    (digits ++ rest).takeWhile isdigit = digits ∧ (digits ++ rest).dropWhile isdigit = rest := by
  rw [List.takeWhile_append_of_pos hdigits, List.dropWhile_append_of_pos hdigits]
  rcases rest with - | ⟨b, rest⟩
  · exact ⟨List.append_nil digits, rfl⟩
  · have hb := hrest b rfl
    rw [List.takeWhile_cons_of_neg (by simp [hb]), List.dropWhile_cons_of_neg (by simp [hb])]
    exact ⟨List.append_nil digits, rfl⟩

theorem digit_ne {b : UInt8} (h : isdigit b = true) : isspace b = false ∧ b ≠ 45 ∧ b ≠ 43 := by
  simp only [isdigit, isspace, Bool.and_eq_true, decide_eq_true_eq, Bool.or_eq_false_iff,
    Bool.and_eq_false_iff, decide_eq_false_iff_not, UInt8.le_iff_toNat_le, ← UInt8.toNat_inj,
    ne_eq, UInt8.reduceToNat] at h ⊢
  omega

/-- Neither white space nor a sign is read before a digit. -/
theorem sign_digits {α : Type} {digits : Bytes} (hdigits : ∀ b ∈ digits, isdigit b = true)
    (hne : digits ≠ []) (rest : Bytes) (f : Bytes → α) (g : Bytes → α) :
    (match (digits ++ rest).dropWhile isspace with
      | 45 :: text => g text
      | 43 :: text => f text
      | text => f text) = f (digits ++ rest) := by
  obtain ⟨d, ds, rfl⟩ := List.exists_cons_of_ne_nil hne
  obtain ⟨hspace, hminus, hplus⟩ := digit_ne (hdigits d List.mem_cons_self)
  rw [List.cons_append, List.dropWhile_cons_of_neg (by simp [hspace])]
  split
  · rename_i heq
    exact absurd (List.cons.inj heq).1 hminus
  · rename_i heq
    exact absurd (List.cons.inj heq).1 hplus
  · rfl

theorem decimal_ne_nil (n : ℕ) : decimal n ≠ [] := by
  simp [decimal]

theorem atoi_decimal (n : ℕ) {rest : Bytes} (hrest : ∀ b ∈ rest.head?, isdigit b = false) :
    atoi (decimal n ++ rest) = n := by
  have hdigits : ∀ b ∈ decimal n, isdigit b = true := fun b => isdigit_of_mem_decimal
  refine (sign_digits hdigits (decimal_ne_nil n) rest
    (fun text => (readDigits 0 (text.takeWhile isdigit) : ℤ))
    (fun text => -(readDigits 0 (text.takeWhile isdigit) : ℤ))).trans ?_
  rw [(span_digits hdigits hrest).1, readDigits_decimal]

/-- `atoi` reads what `%d` has written. -/
theorem atoi_formatInt (z : ℤ) {rest : Bytes} (hrest : ∀ b ∈ rest.head?, isdigit b = false) :
    atoi (formatInt z ++ rest) = z := by
  rcases z with n | n
  · exact atoi_decimal n hrest
  · have hdigits : ∀ b ∈ decimal (n + 1), isdigit b = true := fun b => isdigit_of_mem_decimal
    have hread : atoi (formatInt (.negSucc n) ++ rest) =
        -(readDigits 0 ((decimal (n + 1) ++ rest).takeWhile isdigit) : ℤ) := rfl
    rw [hread, (span_digits hdigits hrest).1, readDigits_decimal]
    rfl

/-! ## The lengths of numbers -/

theorem length_formatInt {z : ℤ} {k : ℕ} (h : z.natAbs < 10 ^ k) (hk : 0 < k) :
    (formatInt z).length ≤ k + 1 := by
  rcases z with m | m
  · have hlen := (length_decimal_le_iff hk).mpr (by simpa using h)
    exact hlen.trans (Nat.le_succ k)
  · have hlen := (length_decimal_le_iff hk).mpr (by simpa using h)
    simpa [formatInt] using hlen

theorem Double.abs_value_lt (d : Double) : |d.value| < 2 ^ 1024 := by
  obtain ⟨m, e, hm, -, he, hvalue⟩ := d.finite
  have hm' : |(m : ℚ)| < 2 ^ 53 := by exact_mod_cast hm
  have hpos : (0 : ℚ) < 2 ^ e := zpow_pos (by norm_num) e
  calc |d.value| = |(m : ℚ)| * 2 ^ e := by rw [hvalue, abs_mul, abs_of_pos hpos]
    _ < 2 ^ 53 * 2 ^ e := mul_lt_mul_of_pos_right hm' hpos
    _ ≤ 2 ^ 53 * 2 ^ ((971 : ℕ) : ℤ) :=
        mul_le_mul_of_nonneg_left (zpow_le_zpow_right₀ (by norm_num) he) (by norm_num)
    _ = 2 ^ 1024 := by rw [zpow_natCast, ← pow_add]

theorem hundredths_le {q : ℚ} {n : ℕ} (h : |q| * 100 < n) : hundredths q ≤ n := by
  have hlow : ⌊|q| * 100⌋.toNat < n := by
    rw [Int.toNat_lt (Int.floor_nonneg.mpr (by positivity)), Int.floor_lt]
    exact_mod_cast h
  simp only [hundredths]
  split_ifs <;> omega

/-- The largest amounts have 309 digits in front of the point. -/
theorem length_formatFixed2 (d : Double) : (formatFixed2 d).length ≤ 313 := by
  have hnum : |d.value| * 100 < (2 ^ 1024 * 100 : ℕ) := by
    rw [Nat.cast_mul, Nat.cast_pow, Nat.cast_ofNat]
    exact mul_lt_mul_of_pos_right d.abs_value_lt (by norm_num)
  have hsmall : hundredths d.value < 10 ^ 309 * 100 :=
    (hundredths_le hnum).trans_lt (by decide +kernel)
  have hwhole : (decimal (hundredths d.value / 100)).length ≤ 309 := by
    refine (length_decimal_le_iff (by decide)).mpr ?_
    rwa [Nat.div_lt_iff_lt_mul (by decide)]
  simp only [formatFixed2, List.length_append, List.length_cons, List.length_nil]
  split_ifs <;> simp only [List.length_cons, List.length_nil] <;> omega

end ChatRoom
