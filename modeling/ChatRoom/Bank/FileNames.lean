import ChatRoom.Bank.CmdStr
import ChatRoom.Support.Wildcard

/-!
# File names

`MatchFileName` of `_public.cpp` compares a file name with a list of patterns such as
`*.txt,*.xml`.  It takes the list apart at the commas, each pattern at its asterisks, and looks for
one part after the other.
-/

namespace ChatRoom.Bank

open CString Splitting Substring Wildcard

/-! ## `MatchFileName` -/

/-- A character of `ToUpper`. -/
def upperChar (b : UInt8) : UInt8 := if 97 ≤ b && b ≤ 122 then b - 32 else b

def ToUpper (str : Bytes) : Bytes := str.map upperChar

/-- `strcmp` of a part with the end of the file name.  When the part is longer than the name, the
comparison starts in front of the name; `outside` is what comes of it. -/
def atEnd (outside : Bytes → Bool) (strFileName part : Bytes) : Bool :=
  if part.length ≤ strFileName.length then
    strFileName.drop (strFileName.length - part.length) = part
  else outside part

/-- The loop over the parts of a pattern. -/
def matchParts (outside : Bytes → Bool) (strFileName : Bytes) : Bool → List Bytes → Bytes → Bool
  | _, [], _ => true
  | isFirst, part :: parts, rest =>
      if isFirst && !(part.isPrefixOf strFileName) then false
      else if parts = [] && !(atEnd outside strFileName part) then false
      else
        match search part rest with
        | none => false
        | some found => matchParts outside strFileName false parts (found.drop part.length)

/-- The loop over the patterns of a list; an empty one is passed over. -/
def matchList (outside : Bytes → Bool) (strFileName strMatchStr : Bytes) : Bool :=
  (SplitToCmd strMatchStr [44] (List.cons_ne_nil _ _) true).any fun pattern =>
    !pattern.isEmpty &&
      matchParts outside strFileName true
        (SplitToCmd pattern [42] (List.cons_ne_nil _ _) true) strFileName

/-- `MatchFileName`. -/
def MatchFileName (outside : Bytes → Bool) (in_FileName in_MatchStr : CStr) : Bool :=
  if in_MatchStr.strlen = 0 then false
  else if in_MatchStr.bytes = [42] then true
  else matchList outside (ToUpper in_FileName.bytes) (ToUpper (in_MatchStr.bytes.take 2000))

/-! ## The parts of one pattern -/

section
variable (outside : Bytes → Bool) {strFileName : Bytes}

theorem atEnd_iff {part : Bytes} (hlen : part.length ≤ strFileName.length) :
    atEnd outside strFileName part = true ↔ part <:+ strFileName := by
  rw [atEnd, if_pos hlen, decide_eq_true_eq]
  constructor
  · intro h
    rw [← h]
    exact List.drop_suffix _ _
  · intro h
    exact (List.suffix_iff_eq_drop.mp h).symm

theorem matchParts_false (parts : List Bytes) (rest : Bytes) :
    matchParts outside strFileName false parts rest =
      searchParts (atEnd outside strFileName) parts rest := by
  induction parts generalizing rest with
  | nil => rfl
  | cons part parts ih =>
      rw [matchParts, searchParts]
      cases search part rest <;> simp [ih]

theorem matchParts_true (part : Bytes) (parts : List Bytes) :
    matchParts outside strFileName true (part :: parts) strFileName = true ↔
      part <+: strFileName ∧
        searchParts (atEnd outside strFileName) (part :: parts) strFileName = true := by
  rw [matchParts, searchParts, ← List.isPrefixOf_iff_prefix]
  simp only [matchParts_false]
  cases part.isPrefixOf strFileName <;> cases search part strFileName <;> simp

/-- Behind a first asterisk a pattern means what it should; a pattern without one accepts every
name that starts and ends with it. -/
def Accepts (strFileName : Bytes) : List Bytes → Prop
  | [part] => part <+: strFileName ∧ part <:+ strFileName
  | parts => Matches parts strFileName

theorem matchParts_iff {parts : List Bytes} (hparts : parts ≠ []) :
    matchParts outside strFileName true parts strFileName = true ↔ Accepts strFileName parts := by
  have haccepts : ∀ p : Bytes, p.length ≤ strFileName.length →
      (atEnd outside strFileName p = true ↔ p <:+ strFileName) := fun p hp => atEnd_iff outside hp
  match parts, hparts with
  | [part], _ =>
      rw [matchParts_true, searchParts_last, Accepts]
      refine and_congr_right fun hstart => ?_
      rw [haccepts part hstart.length_le]
      exact and_iff_left hstart.isInfix
  | part :: second :: parts, _ =>
      rw [matchParts_true]
      exact searchParts_matches_iff haccepts

end

/-! ## Lists of patterns -/

/-- A pattern as a user writes it down: parts with an asterisk between any two of them. -/
structure Pattern where
  parts : List Bytes
  parts_ne : parts ≠ []
  plain : ∀ p ∈ parts, 0 ∉ p ∧ 32 ∉ p ∧ 42 ∉ p ∧ 44 ∉ p

def Pattern.text (p : Pattern) : Bytes := ([42] : Bytes).intercalate p.parts

def patternList (patterns : List Pattern) : Bytes :=
  ([44] : Bytes).intercalate (patterns.map Pattern.text)

/-- Characters that are no letters are neither made nor lost. -/
theorem upperChar_eq_iff {b c : UInt8} (hc : c < 65) : upperChar b = c ↔ b = c := by
  rw [upperChar]
  split_ifs with hletter
  · simp only [Bool.and_eq_true, decide_eq_true_eq] at hletter
    obtain ⟨hlow, hhigh⟩ := hletter
    simp only [← UInt8.toNat_inj, UInt8.le_iff_toNat_le, UInt8.lt_iff_toNat_lt,
      UInt8.toNat_sub, UInt8.reduceToNat] at *
    omega
  · rfl

theorem mem_ToUpper_iff {c : UInt8} (hc : c < 65) {text : Bytes} : c ∈ ToUpper text ↔ c ∈ text := by
  simp [ToUpper, upperChar_eq_iff hc]

theorem ToUpper_intercalate {c : UInt8} (hc : c < 65) (parts : List Bytes) :
    ToUpper ([c].intercalate parts) = [c].intercalate (parts.map ToUpper) := by
  have hsep : [c].map upperChar = [c] := by simp [(upperChar_eq_iff hc).mpr]
  rw [ToUpper, map_intercalate, hsep]
  rfl

/-- A pattern comes apart into its parts. -/
theorem SplitToCmd_pattern (p : Pattern) (hlen : p.text.length ≤ 2000)
    (hstar : ([42] : Bytes) ≠ []) :
    SplitToCmd (ToUpper p.text) [42] hstar true = p.parts.map ToUpper := by
  rw [Pattern.text, ToUpper_intercalate (by decide)]
  refine SplitToCmd_char (by decide) (by simpa using p.parts_ne) ?_ ?_ hstar
  · intro q hq
    obtain ⟨part, hpart, rfl⟩ := List.mem_map.mp hq
    have hplain := p.plain part hpart
    simp only [mem_ToUpper_iff (by decide : (0 : UInt8) < 65),
      mem_ToUpper_iff (by decide : (32 : UInt8) < 65),
      mem_ToUpper_iff (by decide : (42 : UInt8) < 65)]
    exact ⟨hplain.1, hplain.2.1, hplain.2.2.1⟩
  · intro q hq
    obtain ⟨part, hpart, rfl⟩ := List.mem_map.mp hq
    have hle := (infix_intercalate [42] hpart).length_le
    rw [ToUpper, List.length_map]
    exact hle.trans hlen

theorem not_mem_text {c : UInt8} (p : Pattern) (hstar : c ≠ 42) (hc : ∀ q ∈ p.parts, c ∉ q) :
    c ∉ p.text := by
  intro hmem
  rcases mem_intercalate hmem with hsep | ⟨q, hq, hin⟩
  · exact hstar (List.mem_singleton.mp hsep)
  · exact hc q hq hin

/-- The list comes apart into its patterns. -/
theorem SplitToCmd_patternList {patterns : List Pattern} (hpatterns : patterns ≠ [])
    (hlen : (patternList patterns).length ≤ 2000) (hcomma : ([44] : Bytes) ≠ []) :
    SplitToCmd (ToUpper (patternList patterns)) [44] hcomma true =
      patterns.map fun p => ToUpper p.text := by
  have hmap : (patterns.map Pattern.text).map ToUpper = patterns.map fun p => ToUpper p.text := by
    rw [List.map_map]
    rfl
  rw [patternList, ToUpper_intercalate (by decide), hmap]
  refine SplitToCmd_char (by decide) (by simpa using hpatterns) ?_ ?_ hcomma
  · intro q hq
    obtain ⟨p, -, rfl⟩ := List.mem_map.mp hq
    simp only [mem_ToUpper_iff (by decide : (0 : UInt8) < 65),
      mem_ToUpper_iff (by decide : (32 : UInt8) < 65),
      mem_ToUpper_iff (by decide : (44 : UInt8) < 65)]
    exact ⟨not_mem_text p (by decide) fun q hq => (p.plain q hq).1,
      not_mem_text p (by decide) fun q hq => (p.plain q hq).2.1,
      not_mem_text p (by decide) fun q hq => (p.plain q hq).2.2.2⟩
  · intro q hq
    obtain ⟨p, hp, rfl⟩ := List.mem_map.mp hq
    have hle := (infix_intercalate [44] (List.mem_map_of_mem (f := Pattern.text) hp)).length_le
    rw [ToUpper, List.length_map]
    exact hle.trans hlen

theorem matchList_iff (outside : Bytes → Bool) (strFileName : Bytes) {patterns : List Pattern}
    (hpatterns : patterns ≠ []) (hlen : (patternList patterns).length ≤ 2000) :
    matchList outside strFileName (ToUpper (patternList patterns)) = true ↔
      ∃ p ∈ patterns, p.text ≠ [] ∧ Accepts strFileName (p.parts.map ToUpper) := by
  rw [matchList, SplitToCmd_patternList hpatterns hlen, List.any_map, List.any_eq_true]
  refine exists_congr fun p => and_congr_right fun hp => ?_
  have hle := (infix_intercalate [44] (List.mem_map_of_mem (f := Pattern.text) hp)).length_le
  have hparts : p.parts.map ToUpper ≠ [] := by simpa using p.parts_ne
  have hempty : ToUpper p.text = [] ↔ p.text = [] := List.map_eq_nil_iff
  rw [Function.comp_apply, SplitToCmd_pattern p (hle.trans hlen), Bool.and_eq_true,
    matchParts_iff outside hparts, Bool.not_eq_true', List.isEmpty_eq_false_iff, ne_eq, hempty]

/-- The pattern that `MatchFileName` does not take apart would be matched by every name. -/
theorem matchList_asterisk (outside : Bytes → Bool) (strFileName : Bytes) :
    matchList outside strFileName (ToUpper [42]) = true := by
  let asterisk : Pattern := ⟨[[], []], by simp, by simp⟩
  have hiff : matchList outside strFileName (ToUpper (patternList [asterisk])) = true ↔
      ∃ p ∈ [asterisk], p.text ≠ [] ∧ Accepts strFileName (p.parts.map ToUpper) :=
    matchList_iff outside strFileName (List.cons_ne_nil _ _) (by decide)
  have haccepts : Accepts strFileName (asterisk.parts.map ToUpper) :=
    ⟨strFileName, rfl, List.nil_suffix⟩
  exact hiff.mpr ⟨asterisk, List.mem_singleton_self _, by decide, haccepts⟩

/-- A name matches a list of patterns exactly if it is accepted by one that is not empty, without
regard to the case of letters. -/
theorem MatchFileName_iff (outside : Bytes → Bool) (in_FileName : CStr) {patterns : List Pattern}
    {in_MatchStr : CStr} (hlist : in_MatchStr.bytes = patternList patterns)
    (hlen : in_MatchStr.strlen ≤ 2000) :
    MatchFileName outside in_FileName in_MatchStr = true ↔
      ∃ p ∈ patterns, p.text ≠ [] ∧ Accepts (ToUpper in_FileName.bytes) (p.parts.map ToUpper) := by
  rw [CStr.strlen, hlist] at hlen
  rw [MatchFileName, CStr.strlen, hlist]
  split_ifs with hempty hstar
  · -- nothing is joined, so there is nothing in it
    refine iff_of_false (by decide) ?_
    rintro ⟨p, hp, hne, -⟩
    have hle := (infix_intercalate [44] (List.mem_map_of_mem (f := Pattern.text) hp)).length_le
    have hlist : ([44] : Bytes).intercalate (patterns.map Pattern.text) = patternList patterns :=
      rfl
    rw [hlist, hempty] at hle
    exact hne (List.eq_nil_of_length_eq_zero (by omega))
  · have hpatterns : patterns ≠ [] := by
      rintro rfl
      exact hempty rfl
    have hall := matchList_asterisk outside (ToUpper in_FileName.bytes)
    rw [← hstar] at hall
    exact iff_of_true rfl ((matchList_iff outside _ hpatterns hlen).mp hall)
  · have hpatterns : patterns ≠ [] := by
      rintro rfl
      exact hempty rfl
    rw [List.take_of_length_le hlen]
    exact matchList_iff outside _ hpatterns hlen

/-- `*.txt` and `*.xml`. -/
def textFiles : List Pattern :=
  [⟨[[], utf8 ".txt"], by decide,
      List.forall_mem_cons.mpr ⟨by decide, List.forall_mem_singleton.mpr (by decide)⟩⟩,
    ⟨[[], utf8 ".xml"], by decide,
      List.forall_mem_cons.mpr ⟨by decide, List.forall_mem_singleton.mpr (by decide)⟩⟩]

theorem MatchFileName_textFiles :
    MatchFileName (fun _ => false) (cstr (utf8 "bank.XML")) (cstr (utf8 "*.txt,*.xml")) = true ↔
      ∃ p ∈ textFiles, p.text ≠ [] ∧
        Accepts (ToUpper (cstr (utf8 "bank.XML")).bytes) (p.parts.map ToUpper) :=
  MatchFileName_iff _ _ (by decide) (by decide)

end ChatRoom.Bank
