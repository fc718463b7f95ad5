import ChatRoom.Bank.Connection
import ChatRoom.Bank.Requests
import Mathlib.Data.List.Perm.Basic

/-!
# What the messages say

`procmessage` of `bankserver.cpp` fills a `struct st_bank` in from the text of a request.  A message
made of fields is read by their names: the order of the fields does not matter, and what follows
them cannot change a member that they give.  Of an amount the structure here has the text that
`atof` makes the number of.
-/

namespace ChatRoom.Bank

open CString Substring

/-! ## Requests -/

/-- `struct st_bank`, as far as a request fills it in. -/
structure StBankFields where
  msgid : ℤ
  oper_id : CharArray 31
  password : CharArray 31
  userid : CharArray 21
  cardid : CharArray 19
  username : CharArray 31
  tel : CharArray 31
  opertype : ℤ
  je : Option (CharArray 51)
  userid1 : CharArray 21
deriving DecidableEq

/-- The calls of `GetXMLBuffer` in `procmessage`, on a structure that was cleared. -/
def fillIn (strRecvBuffer : CStr) : StBankFields where
  msgid := (GetXMLBufferInt strRecvBuffer (lit "msgid")).2
  oper_id := (GetXMLBuffer strRecvBuffer (lit "oper_id") (CharArray.zero 31) 30).2
  password := (GetXMLBuffer strRecvBuffer (lit "password") (CharArray.zero 31) 30).2
  userid := (GetXMLBuffer strRecvBuffer (lit "userid") (CharArray.zero 21) 20).2
  cardid := (GetXMLBuffer strRecvBuffer (lit "cardid") (CharArray.zero 19) 18).2
  username := (GetXMLBuffer strRecvBuffer (lit "username") (CharArray.zero 31) 30).2
  tel := (GetXMLBuffer strRecvBuffer (lit "tel") (CharArray.zero 31) 30).2
  opertype := (GetXMLBufferInt strRecvBuffer (lit "opertype")).2
  je := GetXMLBufferDouble strRecvBuffer (lit "je")
  userid1 := (GetXMLBuffer strRecvBuffer (lit "userid1") (CharArray.zero 21) 20).2

/-- The members that the functions of the requests work on.  `amount` is what the database gets of
the number that `atof` makes of a text. -/
def StBankFields.stbank (amount : CStr → ℚ) (fields : StBankFields) : StBank where
  msgid := fields.msgid
  oper_id := cstr fields.oper_id.bytes
  password := cstr fields.password.bytes
  userid := cstr fields.userid.bytes
  je := (fields.je.map fun text => amount (cstr text.bytes)).getD 0
  userid1 := cstr fields.userid1.bytes

def msgidTag : Tag := ⟨lit "msgid", by decide, by decide⟩
def operIdTag : Tag := ⟨lit "oper_id", by decide, by decide⟩
def passwordTag : Tag := ⟨lit "password", by decide, by decide⟩
def useridTag : Tag := ⟨lit "userid", by decide, by decide⟩
def cardidTag : Tag := ⟨lit "cardid", by decide, by decide⟩
def usernameTag : Tag := ⟨lit "username", by decide, by decide⟩
def telTag : Tag := ⟨lit "tel", by decide, by decide⟩
def opertypeTag : Tag := ⟨lit "opertype", by decide, by decide⟩
def jeTag : Tag := ⟨lit "je", by decide, by decide⟩
def userid1Tag : Tag := ⟨lit "userid1", by decide, by decide⟩

/-! ## The fields of a request -/

/-- What the first field of a name says, in an array for `n - 1` characters; no field says
nothing. -/
def fieldText (n : ℕ) (fields : List Field) (tag : Tag) : CharArray n :=
  CharArray.ofBytes n
    (((fieldOf fields tag).map fun f => trim (f.value.bytes.take (n - 1))).getD [])

def fieldInt (fields : List Field) (tag : Tag) : ℤ := intOf (atoi (fieldText 51 fields tag).bytes)

def fieldDouble (fields : List Field) (tag : Tag) : Option (CharArray 51) :=
  (fieldOf fields tag).map fun _ => fieldText 51 fields tag

/-- The request that the fields of a message say, each member by the field of its name. -/
def requestOf (fields : List Field) : StBankFields where
  msgid := fieldInt fields msgidTag
  oper_id := fieldText 31 fields operIdTag
  password := fieldText 31 fields passwordTag
  userid := fieldText 21 fields useridTag
  cardid := fieldText 19 fields cardidTag
  username := fieldText 31 fields usernameTag
  tel := fieldText 31 fields telTag
  opertype := fieldInt fields opertypeTag
  je := fieldDouble fields jeTag
  userid1 := fieldText 21 fields userid1Tag

section
variable {message : CStr} {fields : List Field} {tag : Tag} {rest : Bytes} {n : ℕ}

/-- A member is read from its field if the message has one, whatever follows, and otherwise only if
nothing follows. -/
theorem GetXMLBuffer_fields (hmessage : message.bytes = encode fields ++ rest)
    (hrest : fieldOf fields tag = none → rest = []) (hn : 1 < n) :
    GetXMLBuffer message tag.name (CharArray.zero n) (n - 1) =
      ((fieldOf fields tag).isSome, fieldText n fields tag) := by
  rcases hf : fieldOf fields tag with - | f
  · rw [hrest hf, List.append_nil] at hmessage
    rw [GetXMLBuffer_encode_of_none hmessage hf (by omega), fieldText, hf, Option.map_none,
      Option.getD_none, ofBytes_nil]
    rfl
  · rw [GetXMLBuffer_encode hmessage hf (by omega) (by omega), fieldText, hf, Option.map_some,
      Option.getD_some]
    rfl

theorem numberText_fields (hmessage : message.bytes = encode fields ++ rest)
    (hrest : fieldOf fields tag = none → rest = []) :
    numberText message tag.name = ((fieldOf fields tag).isSome, fieldText 51 fields tag) :=
  GetXMLBuffer_fields hmessage hrest (by decide)

theorem bytes_fieldText_of_none (hf : fieldOf fields tag = none) :
    (fieldText n fields tag).bytes = List.replicate n 0 := by
  rw [fieldText, hf, Option.map_none, Option.getD_none, ofBytes_nil]
  rfl

theorem GetXMLBufferInt_fields (hmessage : message.bytes = encode fields ++ rest)
    (hrest : fieldOf fields tag = none → rest = []) :
    GetXMLBufferInt message tag.name = ((fieldOf fields tag).isSome, fieldInt fields tag) := by
  rw [GetXMLBufferInt, numberText_fields hmessage hrest]
  rcases hf : fieldOf fields tag with - | f
  · rw [fieldInt, bytes_fieldText_of_none hf]
    rfl
  · rfl

theorem GetXMLBufferDouble_fields (hmessage : message.bytes = encode fields ++ rest)
    (hrest : fieldOf fields tag = none → rest = []) :
    GetXMLBufferDouble message tag.name = fieldDouble fields tag := by
  rw [GetXMLBufferDouble, numberText_fields hmessage hrest, fieldDouble]
  rcases fieldOf fields tag with - | f <;> rfl

end

theorem fillIn_encode {message : CStr} {fields : List Field}
    (hmessage : message.bytes = encode fields) : fillIn message = requestOf fields := by
  have hmessage' : message.bytes = encode fields ++ [] := by rw [hmessage, List.append_nil]
  have htext : ∀ (n : ℕ) (tag : Tag), 1 < n →
      (GetXMLBuffer message tag.name (CharArray.zero n) (n - 1)).2 = fieldText n fields tag :=
    fun n tag hn => congrArg Prod.snd (GetXMLBuffer_fields hmessage' (fun _ => rfl) hn)
  have hint : ∀ tag : Tag, (GetXMLBufferInt message tag.name).2 = fieldInt fields tag :=
    fun tag => congrArg Prod.snd (GetXMLBufferInt_fields hmessage' fun _ => rfl)
  have hdouble : ∀ tag : Tag, GetXMLBufferDouble message tag.name = fieldDouble fields tag :=
    fun tag => GetXMLBufferDouble_fields hmessage' fun _ => rfl
  rw [fillIn, requestOf, StBankFields.mk.injEq]
  exact ⟨hint msgidTag, htext 31 operIdTag (by decide), htext 31 passwordTag (by decide),
    htext 21 useridTag (by decide), htext 19 cardidTag (by decide),
    htext 31 usernameTag (by decide), htext 31 telTag (by decide), hint opertypeTag, hdouble jeTag,
    htext 21 userid1Tag (by decide)⟩

/-! ## The order of the fields -/

/-- A message made of fields has no terminator in it. -/
theorem bytes_cstr_encode (fields : List Field) : (cstr (encode fields)).bytes = encode fields := by
  apply takeWhile_ne_zero_of_nulFree
  simp only [encode, List.mem_flatMap, not_exists, not_and]
  intro f hf hmem
  rw [Field.text, f.tag.startTag_eq, f.tag.endTag_eq] at hmem
  simp [f.tag.name.nulFree, f.value.nulFree] at hmem

/-- No two fields have one name. -/
def Distinct (fields : List Field) : Prop := (fields.map (·.tag.name)).Nodup

/-- Among distinct fields the first one of a name is the only one. -/
theorem fieldOf_eq_some_iff {fields : List Field} {tag : Tag} {f : Field}
    (hdistinct : Distinct fields) :
    fieldOf fields tag = some f ↔ f ∈ fields ∧ f.tag.name = tag.name := by
  rw [fieldOf, find?_eq_some_iff_of_unique, decide_eq_true_eq]
  intro x hx y hy hxName hyName
  exact List.inj_on_of_nodup_map hdistinct hx hy
    ((of_decide_eq_true hxName).trans (of_decide_eq_true hyName).symm)

theorem fieldOf_perm {fields fields' : List Field} (hperm : fields.Perm fields')
    (hdistinct : Distinct fields) (tag : Tag) : fieldOf fields tag = fieldOf fields' tag := by
  have hdistinct' : Distinct fields' := (hperm.map _).nodup_iff.mp hdistinct
  apply Option.ext
  intro f
  rw [fieldOf_eq_some_iff hdistinct, fieldOf_eq_some_iff hdistinct', hperm.mem_iff]

/-- Each member is what the field of its name says, in whatever order the fields are sent. -/
theorem fillIn_perm {message : CStr} {fields fields' : List Field} (hdistinct : Distinct fields)
    (hperm : fields.Perm fields') (hmessage : message.bytes = encode fields') :
    fillIn message = requestOf fields := by
  rw [fillIn_encode hmessage]
  simp only [requestOf, fieldInt, fieldDouble, fieldText, fieldOf_perm hperm hdistinct]

/-- The fields of the login of an operator. -/
def loginFields : List Field :=
  [⟨msgidTag, lit "1", by decide⟩, ⟨operIdTag, lit "wucz", by decide⟩,
    ⟨passwordTag, lit "wuczpwd", by decide⟩]

/-- The login with its fields the other way round. -/
theorem fillIn_perm_login :
    fillIn (cstr (encode loginFields.reverse)) = requestOf loginFields := by
  have hdistinct : Distinct loginFields := by
    unfold Distinct
    decide
  have hmessage : (cstr (encode loginFields.reverse)).bytes = encode loginFields.reverse := by
    decide
  exact fillIn_perm hdistinct (List.reverse_perm loginFields).symm hmessage

/-! ## Values that come back as they were sent -/

section
variable {message : CStr} {fields : List Field} {tag : Tag} {f : Field} {rest : Bytes} {len n : ℕ}

theorem cstr_GetXMLBuffer (hmessage : message.bytes = encode fields ++ rest)
    (hf : fieldOf fields tag = some f) (hlen : 0 < len) (hn : len < n) :
    (cstr (GetXMLBuffer message tag.name (CharArray.zero n) len).2.bytes).bytes =
      trim (f.value.bytes.take len) := by
  rw [GetXMLBuffer_encode hmessage hf hlen hn]
  have hshort := length_trim_le (f.value.bytes.take len)
  rw [List.length_take] at hshort
  refine cstr_ofBytes (fun h => f.value.nulFree ?_) (by omega)
  exact List.mem_of_mem_take ((List.dropWhile_suffix _).subset
    ((List.rdropWhile_prefix _ _).subset h))

/-- The value of a field comes back as it was sent exactly if it is not longer than what is asked
for and has no blank at either end, whatever follows the fields. -/
theorem GetXMLBuffer_verbatim_iff (hmessage : message.bytes = encode fields ++ rest)
    (hf : fieldOf fields tag = some f) (hlen : 0 < len) (hn : len < n) :
    cstr (GetXMLBuffer message tag.name (CharArray.zero n) len).2.bytes = f.value ↔
      f.value.strlen ≤ len ∧ Trimmed f.value.bytes := by
  have hread := cstr_GetXMLBuffer hmessage hf hlen hn
  rw [CStr.strlen, ← trim_take_eq_self_iff, ← hread]
  exact ⟨congrArg CStr.bytes, CStr.ext_bytes⟩

end

/-- The operator of the login. -/
theorem GetXMLBuffer_verbatim_login :
    cstr (GetXMLBuffer login.strSendBuffer (lit "oper_id") (CharArray.zero 31) 30).2.bytes =
        lit "wucz" ↔ (lit "wucz").strlen ≤ 30 ∧ Trimmed (lit "wucz").bytes := by
  have hmessage : login.strSendBuffer.bytes = encode loginFields ++ [] := by decide
  have hf : fieldOf loginFields operIdTag = some ⟨operIdTag, lit "wucz", by decide⟩ := rfl
  exact GetXMLBuffer_verbatim_iff hmessage hf (by decide) (by decide)

/-! ## Numbers -/

/-- The characters of numbers. -/
def isnumeral (b : UInt8) : Bool := isdigit b || b = 45 || b = 46

theorem isnumeral_of_isdigit {b : UInt8} (h : isdigit b = true) : isnumeral b = true := by
  simp [isnumeral, h]

theorem isnumeral_of_mem_formatInt {z : ℤ} : ∀ b ∈ formatInt z, isnumeral b = true := by
  intro b hb
  rcases z with k | k
  · exact isnumeral_of_isdigit (isdigit_of_mem_decimal hb)
  · rcases List.mem_cons.mp hb with rfl | hb
    · rfl
    · exact isnumeral_of_isdigit (isdigit_of_mem_decimal hb)

theorem isnumeral_of_mem_formatFixed2 {d : Double} :
    ∀ b ∈ formatFixed2 d, isnumeral b = true := by
  have hdigit : ∀ k, isnumeral (digit (k % 10)) = true := fun k =>
    isnumeral_of_isdigit (digit_facts _ (Nat.mod_lt k (by decide))).2.2
  intro b hb
  simp only [formatFixed2, List.mem_append, List.mem_cons, List.not_mem_nil, or_false] at hb
  rcases hb with hsign | hwhole | rfl | rfl | rfl
  · split_ifs at hsign
    · obtain rfl := List.mem_singleton.mp hsign
      rfl
    · cases hsign
  · exact isnumeral_of_isdigit (isdigit_of_mem_decimal hwhole)
  · rfl
  · exact hdigit _
  · exact hdigit _

theorem not_isnumeral {b : UInt8} (hb : b = 0 ∨ b = 32 ∨ b = 60) : isnumeral b = false := by
  rcases hb with rfl | rfl | rfl <;> rfl

/-- A text in which no character occurs that has a meaning in a message. -/
theorem not_mem_numeral {text : Bytes} (h : ∀ b ∈ text, isnumeral b = true) :
    0 ∉ text ∧ 32 ∉ text ∧ 60 ∉ text := by
  have hnone : ∀ b : UInt8, b = 0 ∨ b = 32 ∨ b = 60 → b ∉ text := fun b hb hmem => by
    have hnumeral := h b hmem
    rw [not_isnumeral hb] at hnumeral
    cases hnumeral
  exact ⟨hnone 0 (.inl rfl), hnone 32 (.inr (.inl rfl)), hnone 60 (.inr (.inr rfl))⟩

/-- A field with a number. -/
def numeralField (tag : Tag) (text : Bytes) (h : ∀ b ∈ text, isnumeral b = true) : Field where
  tag := tag
  value := ⟨text, (not_mem_numeral h).1⟩
  plain := (not_mem_numeral h).2.2

section
variable {fields : List Field} {tag : Tag} {text : Bytes} {h : ∀ b ∈ text, isnumeral b = true}

theorem bytes_fieldText_numeral (hf : fieldOf fields tag = some (numeralField tag text h))
    (hlen : text.length ≤ 50) :
    (fieldText 51 fields tag).bytes = text ++ List.replicate (51 - text.length) 0 := by
  have htrim : trim (text.take 50) = text :=
    trim_take_eq_self_iff.mpr ⟨hlen, trimmed_of_not_mem (not_mem_numeral h).2.1⟩
  rw [fieldText, hf, Option.map_some, Option.getD_some]
  simp only [numeralField, Nat.reduceSub, htrim]
  exact CharArray.bytes_ofBytes (by omega)

theorem head_zeros {k : ℕ} : ∀ b ∈ (List.replicate k (0 : UInt8)).head?, isdigit b = false := by
  intro b hb
  obtain rfl := List.eq_of_mem_replicate (List.mem_of_mem_head? hb)
  rfl

/-- A number comes back. -/
theorem fieldInt_formatInt {z : ℤ}
    (hf : fieldOf fields tag = some (numeralField tag (formatInt z) isnumeral_of_mem_formatInt))
    (hlow : -2 ^ 31 ≤ z) (hhigh : z < 2 ^ 31) : fieldInt fields tag = z := by
  have hlen : (formatInt z).length ≤ 50 :=
    (length_formatInt (k := 10) (by omega) (by decide)).trans (by decide)
  rw [fieldInt, bytes_fieldText_numeral hf hlen,
    atoi_formatInt z head_zeros, intOf_eq hlow hhigh]

/-- `atof` gets the text of a number as it was written. -/
theorem fieldDouble_numeral (hf : fieldOf fields tag = some (numeralField tag text h))
    (hlen : text.length ≤ 50) :
    (fieldDouble fields tag).map (fun array => (cstr array.bytes).bytes) = some text := by
  rw [fieldDouble, hf, Option.map_some, Option.map_some, bytes_fieldText_numeral hf hlen,
    cstr_append_zeros]
  exact congrArg some (takeWhile_ne_zero_of_nulFree (not_mem_numeral h).1)

end

/-! ## Vouchers -/

/-- A text that a member for `n` characters takes as it is. -/
structure MemberText (n : ℕ) where
  text : CStr
  plain : 60 ∉ text.bytes
  short : text.strlen ≤ n
  trimmed : Trimmed text.bytes

/-- An amount as it is written, in decimal. -/
structure AmountText where
  text : Bytes
  numeral : ∀ b ∈ text, isnumeral b = true
  short : text.length ≤ 50

/-- A request before it is written down. -/
structure Voucher where
  msgid : ℤ
  low : -2 ^ 31 ≤ msgid
  high : msgid < 2 ^ 31
  oper_id : MemberText 30
  password : MemberText 30
  userid : MemberText 20
  je : AmountText
  userid1 : MemberText 20

def MemberText.field {n : ℕ} (member : MemberText n) (tag : Tag) : Field :=
  ⟨tag, member.text, member.plain⟩

def Voucher.fields (v : Voucher) : List Field :=
  [numeralField msgidTag (formatInt v.msgid) isnumeral_of_mem_formatInt,
    v.oper_id.field operIdTag, v.password.field passwordTag, v.userid.field useridTag,
    numeralField jeTag v.je.text v.je.numeral, v.userid1.field userid1Tag]

def Voucher.stbank (amount : CStr → ℚ) (v : Voucher) : StBank where
  msgid := v.msgid
  oper_id := v.oper_id.text
  password := v.password.text
  userid := v.userid.text
  je := amount ⟨v.je.text, (not_mem_numeral v.je.numeral).1⟩
  userid1 := v.userid1.text

/-- A member gets its text from its field, whatever follows the fields. -/
theorem cstr_member {message : CStr} {fields : List Field} {tag : Tag} {rest : Bytes} {n : ℕ}
    {member : MemberText n} (hmessage : message.bytes = encode fields ++ rest)
    (hf : fieldOf fields tag = some (member.field tag)) (hn : 0 < n) :
    cstr (GetXMLBuffer message tag.name (CharArray.zero (n + 1)) n).2.bytes = member.text := by
  apply CStr.ext_bytes
  rw [cstr_GetXMLBuffer hmessage hf hn (Nat.lt_succ_self n)]
  exact trim_take_eq_self_iff.mpr ⟨member.short, member.trimmed⟩

/-- The server gets the request that was written down, when each of its fields comes first of its
name: in whatever order, among whatever other fields, and whatever follows.  Of the amount it gets
what `atof` and the database make of the text that was written. -/
theorem fillIn_voucher (amount : CStr → ℚ) {message : CStr} {v : Voucher} {fields : List Field}
    {rest : Bytes} (hmessage : message.bytes = encode fields ++ rest)
    (hfields : ∀ f ∈ v.fields, fieldOf fields f.tag = some f) :
    (fillIn message).stbank amount = v.stbank amount := by
  simp only [Voucher.fields, List.forall_mem_cons, List.not_mem_nil, false_imp_iff,
    implies_true, and_true] at hfields
  obtain ⟨hmsgid, hoper_id, hpassword, huserid, hje, huserid1⟩ := hfields
  have hgiven : ∀ {tag : Tag} {f : Field}, fieldOf fields tag = some f →
      fieldOf fields tag = none → rest = [] := fun hsome hnone => by
    rw [hsome] at hnone
    cases hnone
  have hmsgid' := congrArg Prod.snd (GetXMLBufferInt_fields hmessage (hgiven hmsgid))
  rw [fieldInt_formatInt hmsgid v.low v.high] at hmsgid'
  obtain ⟨array, harray, htext⟩ :=
    Option.map_eq_some_iff.mp (fieldDouble_numeral hje v.je.short)
  have hje' : (fillIn message).je = some array :=
    (GetXMLBufferDouble_fields hmessage (hgiven hje)).trans harray
  have hnumber : cstr array.bytes = ⟨v.je.text, (not_mem_numeral v.je.numeral).1⟩ :=
    CStr.ext_bytes htext
  rw [StBankFields.stbank, Voucher.stbank, StBank.mk.injEq, hje', ← hnumber]
  exact ⟨hmsgid', cstr_member hmessage hoper_id (by decide),
    cstr_member hmessage hpassword (by decide), cstr_member hmessage huserid (by decide), rfl,
    cstr_member hmessage huserid1 (by decide)⟩

/-- 12.50 from one account to another. -/
def transferVoucher : Voucher where
  msgid := 6
  low := by decide
  high := by decide
  oper_id := ⟨lit "wucz", by decide, by decide, by decide⟩
  password := ⟨lit "", by decide, by decide, by decide⟩
  userid := ⟨lit "100000001", by decide, by decide, by decide⟩
  je := ⟨utf8 "12.50", by decide +kernel, by decide⟩
  userid1 := ⟨lit "100000002", by decide, by decide, by decide⟩

/-- What the texts of the example stand for. -/
def exampleAmount (text : CStr) : ℚ := if text = lit "12.50" then 25 / 2 else 99

/-- Another amount behind the fields changes nothing. -/
theorem fillIn_voucher_transfer :
    (fillIn (cstr (encode (transferVoucher.fields ++
      [⟨jeTag, lit "99.00", by decide⟩])))).stbank exampleAmount =
        transferVoucher.stbank exampleAmount := by
  have hdistinct : Distinct transferVoucher.fields := by
    unfold Distinct
    decide
  have hmessage := (bytes_cstr_encode
    (transferVoucher.fields ++ [⟨jeTag, lit "99.00", by decide⟩])).trans List.flatMap_append
  exact fillIn_voucher exampleAmount hmessage fun f hf =>
    (fieldOf_eq_some_iff hdistinct).mpr ⟨hf, rfl⟩

end ChatRoom.Bank
