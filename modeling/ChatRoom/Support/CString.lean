import Mathlib.Data.List.TakeWhile
import Mathlib.Tactic.Common

/-!
# Bytes, C strings and character arrays

`CStr` is a NUL-terminated string without its terminator, `CharArray n` a
`char[n]`.  The definitions follow the C library: `cstr` reads up to the first
NUL, `snprintf` keeps at most `size - 1` characters, `store` is a `memcpy` to
the start of an array, and `strcpy` also writes the terminator and leaves the
rest of the array as it was.
-/

namespace CString

/-- A run of memory, one entry a byte. -/
abbrev Bytes := List UInt8

/-- The bytes of a source literal, whose encoding is UTF-8. -/
def utf8 (s : String) : Bytes := s.toList.flatMap String.utf8EncodeChar

/-! ## NUL-terminated strings -/

/-- A C string: bytes without NUL. -/
structure CStr where
  bytes : Bytes
  nulFree : 0 ∉ bytes
deriving DecidableEq

theorem CStr.ext_bytes {s t : CStr} (h : s.bytes = t.bytes) : s = t := by
  cases s
  cases t
  cases h
  rfl

/-- The C string at the start of a run of memory. -/
def cstr (memory : Bytes) : CStr where
  bytes := memory.takeWhile (· != 0)
  nulFree := by
    intro h
    simpa using List.mem_takeWhile_imp h

/-- A C string written as a literal in the source. -/
def lit (s : String) : CStr := cstr (utf8 s)

/-- `strlen` of a C string. -/
def CStr.strlen (s : CStr) : ℕ := s.bytes.length

@[simp] theorem bytes_cstr (memory : Bytes) :
    (cstr memory).bytes = memory.takeWhile (· != 0) := rfl

theorem takeWhile_ne_zero_of_nulFree {s : Bytes} (hs : 0 ∉ s) :
    s.takeWhile (· != 0) = s := by
  rw [List.takeWhile_eq_self_iff]
  intro b hb
  have hne : b ≠ 0 := fun h => hs (h ▸ hb)
  simpa using hne

/-- Reading stops at the terminator that follows a C string. -/
theorem cstr_append_zero (s : CStr) (rest : Bytes) :
    cstr (s.bytes ++ 0 :: rest) = s := by
  apply CStr.ext_bytes
  rw [bytes_cstr, List.takeWhile_append_of_pos]
  · simp
  · intro b hb
    have hne : b ≠ 0 := fun h => s.nulFree (h ▸ hb)
    simpa using hne

/-- What is behind a NUL is not read. -/
theorem cstr_append_of_mem {memory : Bytes} (h : 0 ∈ memory) (rest : Bytes) :
    cstr (memory ++ rest) = cstr memory := by
  apply CStr.ext_bytes
  rw [bytes_cstr, bytes_cstr, List.takeWhile_append, if_neg]
  intro hall
  have hself : (cstr memory).bytes = memory := (List.takeWhile_prefix _).eq_of_length hall
  exact (cstr memory).nulFree (hself.symm ▸ h)

/-- A string is read from the start of a memory exactly if nothing, or a terminator, follows it. -/
theorem cstr_append_eq_iff (s : CStr) (rest : Bytes) :
    cstr (s.bytes ++ rest) = s ↔ ∀ b ∈ rest.head?, b = 0 := by
  rcases rest with - | ⟨b, rest⟩
  · refine iff_of_true ?_ fun b hb => by cases hb
    rw [List.append_nil]
    exact CStr.ext_bytes (takeWhile_ne_zero_of_nulFree s.nulFree)
  · constructor
    · intro h c hc
      obtain rfl : b = c := Option.some.inj hc
      by_contra hb
      have hread : ∀ c ∈ s.bytes, (c != 0) = true := fun c hc => by
        have hne : c ≠ 0 := fun hzero => s.nulFree (hzero ▸ hc)
        simpa using hne
      have hlonger : s.bytes ++ [b] <+: (cstr (s.bytes ++ b :: rest)).bytes := by
        refine ⟨rest.takeWhile (· != 0), ?_⟩
        rw [bytes_cstr, List.takeWhile_append_of_pos hread]
        simp [hb]
      have hlen := hlonger.length_le
      rw [h, List.length_append, List.length_singleton] at hlen
      omega
    · intro h
      rw [h b rfl]
      exact cstr_append_zero s rest

/-- Padding with zeros does not change the string at the start of a memory. -/
theorem cstr_append_zeros (memory : Bytes) (k : ℕ) :
    cstr (memory ++ List.replicate k 0) = cstr memory := by
  apply CStr.ext_bytes
  have hzeros : (List.replicate k (0 : UInt8)).takeWhile (· != 0) = [] := by
    cases k <;> simp [List.replicate_succ]
  rw [bytes_cstr, bytes_cstr, List.takeWhile_append, hzeros, List.append_nil]
  split_ifs with h
  · exact ((List.takeWhile_prefix _).eq_of_length h).symm
  · rfl

theorem bytes_cstr_eq_self_iff (memory : Bytes) :
    (cstr memory).bytes = memory ↔ 0 ∉ memory := by
  constructor
  · intro h
    exact h ▸ (cstr memory).nulFree
  · exact takeWhile_ne_zero_of_nulFree

theorem strlen_cstr_le (memory : Bytes) : (cstr memory).strlen ≤ memory.length :=
  (List.takeWhile_prefix _).length_le

theorem take_strlen_cstr (memory : Bytes) :
    memory.take (cstr memory).strlen = (cstr memory).bytes :=
  (List.prefix_iff_eq_take.mp (List.takeWhile_prefix _)).symm

/-- `snprintf` into a buffer of `size` bytes: the text is cut to leave room for
the terminator. -/
def snprintf (size : ℕ) (text : Bytes) : Bytes := text.take (size - 1)

theorem snprintf_eq_self {size : ℕ} {text : Bytes} (h : text.length < size) :
    snprintf size text = text :=
  List.take_of_length_le (by omega)

theorem length_snprintf (size : ℕ) (text : Bytes) :
    (snprintf size text).length = min (size - 1) text.length :=
  List.length_take

/-- The text survives formatting exactly if it fits with its terminator. -/
theorem snprintf_eq_self_iff {size : ℕ} (hsize : 0 < size) (text : Bytes) :
    snprintf size text = text ↔ text.length < size := by
  constructor
  · intro h
    have hlen := congrArg List.length h
    rw [length_snprintf] at hlen
    omega
  · exact snprintf_eq_self

/-! ## Character arrays -/

/-- `char[n]`. -/
structure CharArray (n : ℕ) where
  bytes : Bytes
  length_eq : bytes.length = n
deriving DecidableEq

namespace CharArray

variable {n : ℕ}

theorem ext_bytes {a b : CharArray n} (h : a.bytes = b.bytes) : a = b := by
  cases a
  cases b
  cases h
  rfl

@[simp] theorem length_bytes (a : CharArray n) : a.bytes.length = n := a.length_eq

/-- The array cleared by `memset` to 0. -/
def zero (n : ℕ) : CharArray n := ⟨List.replicate n 0, List.length_replicate⟩

/-- `memcpy` of `src` to the start of the array.  What would not fit is dropped:
no caller in a modelled program copies more than the array holds. -/
def store (a : CharArray n) (src : Bytes) : CharArray n where
  bytes := src.take n ++ a.bytes.drop src.length
  length_eq := by simp; omega

/-- `strcpy` into the array. -/
def strcpy (a : CharArray n) (src : CStr) : CharArray n := a.store (src.bytes ++ [0])

/-- The array that holds the given bytes followed by zeros. -/
def ofBytes (n : ℕ) (src : Bytes) : CharArray n := (zero n).store src

theorem bytes_store {a : CharArray n} {src : Bytes} (h : src.length ≤ n) :
    (a.store src).bytes = src ++ a.bytes.drop src.length := by
  simp [store, List.take_of_length_le h]

theorem bytes_ofBytes {src : Bytes} (h : src.length ≤ n) :
    (ofBytes n src).bytes = src ++ List.replicate (n - src.length) 0 := by
  simp [ofBytes, bytes_store h, zero]

/-- An array is read back from memory that starts with it. -/
theorem ofBytes_append (a : CharArray n) (rest : Bytes) :
    ofBytes n (a.bytes ++ rest) = a := by
  apply ext_bytes
  have hdrop : (zero n).bytes.drop (a.bytes ++ rest).length = [] := by
    rw [List.drop_eq_nil_iff]
    simp
  simp only [ofBytes, store, hdrop, List.append_nil, List.take_left' a.length_eq]

@[simp] theorem ofBytes_bytes (a : CharArray n) : ofBytes n a.bytes = a := by
  simpa using ofBytes_append a []

/-- The array holds the string with its terminator. -/
def Holds (a : CharArray n) (s : CStr) : Prop := s.bytes ++ [0] <+: a.bytes

instance (a : CharArray n) (s : CStr) : Decidable (a.Holds s) :=
  inferInstanceAs (Decidable (_ <+: _))

/-- A string that the array holds is what a reader of the memory from there on sees. -/
theorem Holds.cstr_append {a : CharArray n} {s : CStr} (h : a.Holds s) (rest : Bytes) :
    cstr (a.bytes ++ rest) = s := by
  obtain ⟨padding, hpadding⟩ := h
  rw [← hpadding, List.append_assoc, List.append_assoc]
  exact cstr_append_zero s _

theorem Holds.strlen_lt {a : CharArray n} {s : CStr} (h : a.Holds s) : s.strlen < n := by
  have hlen := h.length_le
  rw [a.length_eq, List.length_append, List.length_singleton] at hlen
  exact hlen

/-- `strcpy` of a string with room for its terminator. -/
theorem holds_strcpy (a : CharArray n) {s : CStr} (h : s.strlen < n) :
    (a.strcpy s).Holds s := by
  have hlen : (s.bytes ++ [0]).length ≤ n := by
    simp only [List.length_append, List.length_singleton]
    exact h
  rw [Holds, strcpy, bytes_store hlen]
  exact List.prefix_append _ _

end CharArray

/-! ## Little-endian words -/

/-- The four bytes of a 32-bit word, least significant first. -/
def le32 (x : BitVec 32) : Bytes :=
  [UInt8.ofNat x.toNat, UInt8.ofNat (x.toNat / 256),
    UInt8.ofNat (x.toNat / 65536), UInt8.ofNat (x.toNat / 16777216)]

/-- The word whose bytes start the memory; missing bytes count as 0. -/
def ofLe32 (memory : Bytes) : BitVec 32 :=
  BitVec.ofNat 32 ((memory.getD 0 0).toNat + 256 * (memory.getD 1 0).toNat +
    65536 * (memory.getD 2 0).toNat + 16777216 * (memory.getD 3 0).toNat)

@[simp] theorem length_le32 (x : BitVec 32) : (le32 x).length = 4 := rfl

@[simp] theorem ofLe32_le32_append (x : BitVec 32) (rest : Bytes) :
    ofLe32 (le32 x ++ rest) = x := by
  have hx : x.toNat < 4294967296 := x.isLt
  apply BitVec.eq_of_toNat_eq
  simp only [ofLe32, le32, List.cons_append, List.getD_cons_zero, List.getD_cons_succ,
    UInt8.toNat_ofNat', BitVec.toNat_ofNat]
  omega

end CString
