import ChatRoom.Core.Numbers
import ChatRoom.Support.Substring
import Mathlib.Data.List.DropRight

/-!
# Fields of a message

The messages of the bank are sequences of fields, a value between an opening and a closing tag.
`GetXMLBuffer` of `_public.cpp` reads the value of a field, wherever in the message it stands.
-/

namespace ChatRoom.Bank

open CString Substring

/-! ## `_public.cpp` -/

section
variable {n : ℕ}

/-- `DeleteLChar`. -/
def DeleteLChar (in_string : CharArray n) (in_char : UInt8) : CharArray n :=
  let strTemp := cstr in_string.bytes
  if strTemp.strlen = 0 then in_string
  else
    let cleared := in_string.store (List.replicate (strTemp.strlen + 1) 0)
    cleared.store (strTemp.bytes.dropWhile (· == in_char) ++ [0])

/-- `DeleteRChar`: the characters at the end are overwritten with zeros. -/
def DeleteRChar (in_string : CharArray n) (in_char : UInt8) : CharArray n :=
  let text := (cstr in_string.bytes).bytes
  let kept := text.rdropWhile (· == in_char)
  in_string.store (kept ++ List.replicate (text.length - kept.length) 0)

def DeleteLRChar (in_string : CharArray n) (in_char : UInt8) : CharArray n :=
  DeleteRChar (DeleteLChar in_string in_char) in_char

/-- `strstr`. -/
def strstr (haystack : CStr) (needle : Bytes) : Option Bytes := search needle haystack.bytes

/-- `m_SFieldName`. -/
def startTag (in_FieldName : CStr) : Bytes := snprintf 50 (60 :: (in_FieldName.bytes ++ [62]))

/-- `m_EFieldName`. -/
def endTag (in_FieldName : CStr) : Bytes := snprintf 50 (60 :: 47 :: (in_FieldName.bytes ++ [62]))

/-- `GetXMLBuffer` for a string, with the array in which it leaves the value.  The end of a value
does not come before its start while the name of the field has no angle bracket. -/
def GetXMLBuffer (in_XMLBuffer in_FieldName : CStr) (out_Value : CharArray n) (in_Len : ℕ) :
    Bool × CharArray n :=
  let out_Value := out_Value.store [0]
  match strstr in_XMLBuffer (startTag in_FieldName) with
  | none => (false, out_Value)
  | some start =>
      match search (endTag in_FieldName) start with
      | none => (false, out_Value)
      | some tail =>
          let m_NameLen := in_FieldName.strlen
          let m_ValueLen := start.length - tail.length - m_NameLen - 2
          let count := if m_ValueLen ≤ in_Len ∨ in_Len = 0 then m_ValueLen else in_Len
          let copied := out_Value.store ((start.drop (m_NameLen + 2)).take count)
          (true, DeleteLRChar copied 32)

end

/-- `strTemp` of the functions for numbers, after they have read a string of 50 characters. -/
def numberText (in_XMLBuffer in_FieldName : CStr) : Bool × CharArray 51 :=
  GetXMLBuffer in_XMLBuffer in_FieldName (CharArray.zero 51) 50

/-- `GetXMLBuffer` for an `int`. -/
def GetXMLBufferInt (in_XMLBuffer in_FieldName : CStr) : Bool × ℤ :=
  let strTemp := numberText in_XMLBuffer in_FieldName
  if strTemp.1 then (true, intOf (atoi strTemp.2.bytes)) else (false, 0)

/-- `GetXMLBuffer` for a `double`: the array that `atof` is called with, or `none` if the number
stays 0. -/
def GetXMLBufferDouble (in_XMLBuffer in_FieldName : CStr) : Option (CharArray 51) :=
  let strTemp := numberText in_XMLBuffer in_FieldName
  if strTemp.1 then some strTemp.2 else none

/-! ## Fields -/

/-- A name that can stand in a tag, and fits the arrays of `GetXMLBuffer`. -/
structure Tag where
  name : CStr
  plain : 60 ∉ name.bytes ∧ 62 ∉ name.bytes ∧ 47 ∉ name.bytes
  short : name.strlen ≤ 46

/-- A field whose value opens no tag. -/
structure Field where
  tag : Tag
  value : CStr
  plain : 60 ∉ value.bytes

/-- The field as it stands in a message. -/
def Field.text (f : Field) : Bytes :=
  startTag f.tag.name ++ f.value.bytes ++ endTag f.tag.name

def encode (fields : List Field) : Bytes := fields.flatMap Field.text

/-- The first field of a name. -/
def fieldOf (fields : List Field) (tag : Tag) : Option Field :=
  fields.find? (·.tag.name = tag.name)

theorem Tag.startTag_eq (t : Tag) : startTag t.name = 60 :: (t.name.bytes ++ [62]) := by
  apply snprintf_eq_self
  have hshort := t.short
  simp only [CStr.strlen] at hshort
  simp only [List.length_cons, List.length_append, List.length_nil]
  omega

theorem Tag.endTag_eq (t : Tag) : endTag t.name = 60 :: 47 :: (t.name.bytes ++ [62]) := by
  apply snprintf_eq_self
  have hshort := t.short
  simp only [CStr.strlen] at hshort
  simp only [List.length_cons, List.length_append, List.length_nil]
  omega

/-- A field of another name is passed over. -/
theorem search_startTag_of_ne {f : Field} {tag : Tag} (h : f.tag.name ≠ tag.name) (rest : Bytes) :
    search (startTag tag.name) (f.text ++ rest) = search (startTag tag.name) rest := by
  obtain ⟨hopen, hclose, hslash⟩ := f.tag.plain
  have htext : f.text ++ rest = 60 :: ((f.tag.name.bytes ++ 62 :: f.value.bytes) ++
      60 :: ((47 :: (f.tag.name.bytes ++ [62])) ++ rest)) := by
    simp [Field.text, f.tag.startTag_eq, f.tag.endTag_eq]
  have hfirst : ¬ startTag tag.name <+: 60 :: ((f.tag.name.bytes ++ 62 :: f.value.bytes) ++
      60 :: ((47 :: (f.tag.name.bytes ++ [62])) ++ rest)) := by
    rw [tag.startTag_eq, List.cons_prefix_cons, List.append_assoc, List.cons_append]
    rintro ⟨-, hp⟩
    exact h (CStr.ext_bytes (eq_of_prefix_delimiter tag.plain.2.1 hclose hp)).symm
  have hsecond : ¬ startTag tag.name <+: 60 :: ((47 :: (f.tag.name.bytes ++ [62])) ++ rest) := by
    rw [tag.startTag_eq, List.cons_prefix_cons, ← List.cons_append, List.append_assoc,
      List.singleton_append]
    rintro ⟨-, hp⟩
    have heq := eq_of_prefix_delimiter tag.plain.2.1 (by simpa using hclose) hp
    exact tag.plain.2.2 (heq ▸ List.mem_cons_self)
  rw [htext, search_cons_of_not hfirst, tag.startTag_eq,
    search_append_of_not_mem (by simpa [hopen] using f.plain), ← tag.startTag_eq,
    search_cons_of_not hsecond, tag.startTag_eq,
    search_append_of_not_mem (by simpa using hopen)]

/-- The closing tag of a field is found behind its value. -/
theorem search_endTag (f : Field) (rest : Bytes) :
    search (endTag f.tag.name) (f.text ++ rest) = some (endTag f.tag.name ++ rest) := by
  obtain ⟨hopen, hclose, hslash⟩ := f.tag.plain
  have htext : f.text ++ rest =
      60 :: ((f.tag.name.bytes ++ 62 :: f.value.bytes) ++ (endTag f.tag.name ++ rest)) := by
    simp [Field.text, f.tag.startTag_eq]
  have hfirst : ¬ endTag f.tag.name <+:
      60 :: ((f.tag.name.bytes ++ 62 :: f.value.bytes) ++ (endTag f.tag.name ++ rest)) := by
    rw [f.tag.endTag_eq, List.cons_prefix_cons, List.append_assoc, List.cons_append,
      ← List.cons_append]
    rintro ⟨-, hp⟩
    have heq := eq_of_prefix_delimiter (by simpa using hclose) hclose hp
    exact absurd (congrArg List.length heq) (by simp)
  have hskip : search (endTag f.tag.name)
      ((f.tag.name.bytes ++ 62 :: f.value.bytes) ++ (endTag f.tag.name ++ rest)) =
        search (endTag f.tag.name) (endTag f.tag.name ++ rest) := by
    rw [f.tag.endTag_eq]
    exact search_append_of_not_mem (by simpa [hopen] using f.plain) _
  rw [htext, search_cons_of_not hfirst, hskip, search_of_start (List.prefix_append _ _)]

theorem encode_cons (f : Field) (fields : List Field) :
    encode (f :: fields) = f.text ++ encode fields := by
  simp [encode]

/-- The search for a field of the message comes to its first field of that name. -/
theorem search_encode {fields : List Field} {tag : Tag} {f : Field}
    (h : fieldOf fields tag = some f) (rest : Bytes) :
    ∃ after, search (startTag tag.name) (encode fields ++ rest) =
      some (f.text ++ (encode after ++ rest)) := by
  induction fields with
  | nil => cases h
  | cons g fields ih =>
      rw [encode_cons, List.append_assoc]
      by_cases hg : g.tag.name = tag.name
      · rw [fieldOf, List.find?_cons_of_pos (by simpa using hg)] at h
        obtain rfl : g = f := Option.some.inj h
        refine ⟨fields, search_of_start ?_⟩
        rw [← hg, Field.text, List.append_assoc, List.append_assoc]
        exact List.prefix_append _ _
      · rw [fieldOf, List.find?_cons_of_neg (by simpa using hg)] at h
        rw [search_startTag_of_ne hg]
        exact ih h

/-- Without such a field the search goes on behind the fields. -/
theorem search_encode_of_none {fields : List Field} {tag : Tag} (h : fieldOf fields tag = none)
    (rest : Bytes) :
    search (startTag tag.name) (encode fields ++ rest) = search (startTag tag.name) rest := by
  induction fields with
  | nil => rfl
  | cons g fields ih =>
      rw [fieldOf, List.find?_eq_none] at h
      have hg : g.tag.name ≠ tag.name := by simpa using h g List.mem_cons_self
      rw [encode_cons, List.append_assoc, search_startTag_of_ne hg]
      exact ih (List.find?_eq_none.mpr fun f hf => h f (List.mem_cons_of_mem g hf))

/-! ## Blanks -/

/-- The value without blanks at its ends. -/
def trim (text : Bytes) : Bytes := (text.dropWhile (· == 32)).rdropWhile (· == 32)

/-- No blank at either end. -/
def Trimmed (text : Bytes) : Prop := text.head? ≠ some 32 ∧ text.getLast? ≠ some 32

instance (text : Bytes) : Decidable (Trimmed text) := inferInstanceAs (Decidable (_ ∧ _))

theorem trim_eq_self_iff {text : Bytes} : trim text = text ↔ Trimmed text := by
  have hleft : text.dropWhile (· == 32) = text ↔ text.head? ≠ some 32 := by
    rw [List.dropWhile_eq_self_iff]
    cases text <;> simp
  have hright : text.rdropWhile (· == 32) = text ↔ text.getLast? ≠ some 32 := by
    rw [List.rdropWhile_eq_self_iff]
    rcases text.eq_nil_or_concat with rfl | ⟨front, b, rfl⟩ <;> simp
  constructor
  · intro h
    have hshort := (List.dropWhile_suffix (· == 32) (l := text)).length_le
    have hshort' := (List.rdropWhile_prefix (· == 32) (text.dropWhile (· == 32))).length_le
    have hlen := congrArg List.length h
    rw [trim] at hlen
    have hkeep : text.dropWhile (· == 32) = text :=
      (List.dropWhile_suffix _).eq_of_length (by omega)
    rw [trim, hkeep] at h
    exact ⟨hleft.mp hkeep, hright.mp h⟩
  · rintro ⟨hhead, hlast⟩
    rw [trim, hleft.mpr hhead, hright.mpr hlast]

theorem length_trim_le (text : Bytes) : (trim text).length ≤ text.length :=
  ((List.rdropWhile_prefix _ _).length_le).trans (List.dropWhile_suffix _).length_le

theorem trim_take_eq_self_iff {text : Bytes} {len : ℕ} :
    trim (text.take len) = text ↔ text.length ≤ len ∧ Trimmed text := by
  constructor
  · intro h
    have hlen := length_trim_le (text.take len)
    rw [h, List.length_take] at hlen
    have hshort : text.length ≤ len := by omega
    rw [List.take_of_length_le hshort] at h
    exact ⟨hshort, trim_eq_self_iff.mp h⟩
  · rintro ⟨hshort, htrimmed⟩
    rw [List.take_of_length_le hshort, trim_eq_self_iff.mpr htrimmed]

theorem trimmed_of_not_mem {text : Bytes} (h : 32 ∉ text) : Trimmed text :=
  ⟨fun hhead => h (List.mem_of_mem_head? hhead), fun hlast => h (List.mem_of_getLast? hlast)⟩

section
variable {n : ℕ}

theorem cstr_ofBytes {text : Bytes} (htext : 0 ∉ text) (hlen : text.length ≤ n) :
    (cstr (CharArray.ofBytes n text).bytes).bytes = text := by
  rw [CharArray.bytes_ofBytes hlen, cstr_append_zeros]
  exact takeWhile_ne_zero_of_nulFree htext

theorem ofBytes_nil (n : ℕ) : CharArray.ofBytes n [] = CharArray.zero n := by
  apply CharArray.ext_bytes
  simp [CharArray.ofBytes, CharArray.store]

/-- A shorter string, with zeros behind it, over an old one. -/
theorem store_ofBytes (old text : Bytes) (k : ℕ) (hold : old.length ≤ text.length + k)
    (hlen : text.length + k ≤ n) :
    (CharArray.ofBytes n old).store (text ++ List.replicate k 0) = CharArray.ofBytes n text := by
  have hgone : old.drop (text.length + k) = [] := List.drop_eq_nil_of_le hold
  apply CharArray.ext_bytes
  rw [CharArray.bytes_store (by simpa using hlen), CharArray.bytes_ofBytes (by omega),
    CharArray.bytes_ofBytes (by omega), List.length_append, List.length_replicate,
    List.drop_append, hgone, List.nil_append, List.drop_replicate, List.append_assoc,
    List.replicate_append_replicate]
  congr 2
  omega

/-- `strcpy` of the empty string changes nothing in a cleared array. -/
theorem store_zero (hn : 0 < n) : (CharArray.zero n).store [0] = CharArray.zero n := by
  rw [← ofBytes_nil]
  exact store_ofBytes [] [] 1 (Nat.zero_le _) (by rw [List.length_nil]; omega)

theorem DeleteLChar_ofBytes {text : Bytes} (htext : 0 ∉ text) (hlen : text.length < n)
    (c : UInt8) :
    DeleteLChar (CharArray.ofBytes n text) c =
      CharArray.ofBytes n (text.dropWhile (· == c)) := by
  have hread := cstr_ofBytes htext hlen.le
  have hshort := (List.dropWhile_suffix (p := (· == c)) (l := text)).length_le
  simp only [DeleteLChar, CStr.strlen, hread]
  split_ifs with hempty
  · obtain rfl := List.eq_nil_of_length_eq_zero hempty
    rfl
  · have hcleared : (CharArray.ofBytes n text).store (List.replicate (text.length + 1) 0) =
        CharArray.ofBytes n [] :=
      store_ofBytes text [] (text.length + 1) (by simp) (by rw [List.length_nil]; omega)
    rw [hcleared]
    exact store_ofBytes [] _ 1 (Nat.zero_le _) (by omega)

theorem DeleteRChar_ofBytes {text : Bytes} (htext : 0 ∉ text) (hlen : text.length < n)
    (c : UInt8) :
    DeleteRChar (CharArray.ofBytes n text) c =
      CharArray.ofBytes n (text.rdropWhile (· == c)) := by
  have hread := cstr_ofBytes htext hlen.le
  have hshort := (List.rdropWhile_prefix (· == c) text).length_le
  simp only [DeleteRChar, hread]
  exact store_ofBytes text _ _ (by omega) (by omega)

theorem DeleteLRChar_ofBytes {text : Bytes} (htext : 0 ∉ text) (hlen : text.length < n) :
    DeleteLRChar (CharArray.ofBytes n text) 32 = CharArray.ofBytes n (trim text) := by
  have hsuffix := List.dropWhile_suffix (p := (· == 32)) (l := text)
  have hlen' := hsuffix.length_le
  rw [DeleteLRChar, DeleteLChar_ofBytes htext hlen,
    DeleteRChar_ofBytes (fun h => htext (hsuffix.subset h)) (by omega)]
  rfl

/-! ## Reading a field -/

variable {message : CStr} {fields : List Field} {tag : Tag} {f : Field} {rest : Bytes} {len : ℕ}

/-- The value of the first field of the name is read, cut to the length that is asked for and
without the blanks at its ends, whatever follows the fields. -/
theorem GetXMLBuffer_encode (hmessage : message.bytes = encode fields ++ rest)
    (hf : fieldOf fields tag = some f) (hlen : 0 < len) (hn : len < n) :
    GetXMLBuffer message tag.name (CharArray.zero n) len =
      (true, CharArray.ofBytes n (trim (f.value.bytes.take len))) := by
  have hname : f.tag.name = tag.name := by
    have hsome := List.find?_some hf
    simpa using hsome
  obtain ⟨after, hstart⟩ := search_encode hf rest
  have hend := search_endTag f (encode after ++ rest)
  rw [hname] at hend
  have hclear := store_zero (by omega : 0 < n)
  have hopen : (startTag tag.name).length = tag.name.strlen + 2 := by
    simp [tag.startTag_eq, CStr.strlen]
  have htext : f.text ++ (encode after ++ rest) =
      startTag tag.name ++ (f.value.bytes ++ (endTag tag.name ++ (encode after ++ rest))) := by
    simp [Field.text, hname]
  have hdrop : (f.text ++ (encode after ++ rest)).drop (tag.name.strlen + 2) =
      f.value.bytes ++ (endTag tag.name ++ (encode after ++ rest)) := by
    rw [htext, ← hopen, List.drop_left]
  have hcount : (f.text ++ (encode after ++ rest)).length -
      (endTag tag.name ++ (encode after ++ rest)).length - tag.name.strlen - 2 =
        f.value.bytes.length := by
    rw [htext]
    simp only [List.length_append, hopen]
    omega
  have hcopied : ∀ k, (f.value.bytes ++ (endTag tag.name ++ (encode after ++ rest))).take
      (if f.value.bytes.length ≤ k ∨ k = 0 then f.value.bytes.length else k) =
        if k = 0 then f.value.bytes else f.value.bytes.take k := by
    intro k
    split_ifs with h h0 h0
    · rw [List.take_left]
    · rw [List.take_left, List.take_of_length_le (by omega)]
    · exact absurd (.inr h0) h
    · rw [List.take_append_of_le_length (by omega)]
  have hnul : 0 ∉ f.value.bytes.take len := fun h => f.value.nulFree (List.mem_of_mem_take h)
  have hshort : (f.value.bytes.take len).length < n := by
    rw [List.length_take]
    omega
  rw [GetXMLBuffer]
  simp only [strstr, hmessage, hstart, hend, hclear, hcount, hdrop, hcopied]
  rw [if_neg hlen.ne']
  exact congrArg (Prod.mk true) (DeleteLRChar_ofBytes hnul hshort)

/-- A field that the message does not have is not read. -/
theorem GetXMLBuffer_encode_of_none (hmessage : message.bytes = encode fields)
    (hf : fieldOf fields tag = none) (hn : 0 < n) :
    GetXMLBuffer message tag.name (CharArray.zero n) len = (false, CharArray.zero n) := by
  have hstart := search_encode_of_none hf []
  have hnil : search (startTag tag.name) [] = none := by
    rw [search, tag.startTag_eq]
    rfl
  rw [List.append_nil, hnil] at hstart
  rw [GetXMLBuffer]
  simp only [strstr, hmessage, hstart, store_zero hn]

end

end ChatRoom.Bank
