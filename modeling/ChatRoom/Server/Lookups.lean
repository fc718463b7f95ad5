import ChatRoom.Server.Database

/-!
# Answers of the queries

What the functions of `server_mysql.c` return with a database as documented, for names
and texts without quotes and backslashes.  The statements are formatted into buffers of
64 and 128 bytes; a name or text that does not fit cuts the statement off.
-/

namespace ChatRoom

open CString SqlText

/-! ## The lengths of the statements -/

theorem length_friendsSelect (src des : Bytes) :
    (sql friendsSelect [src, des]).length = 57 + src.length + des.length := by
  have hfixed : friendsSelectTemplate.fixedLength = 53 := rfl
  rw [sql_friendsSelect, friendsSelectTemplate.length_render [src, des] rfl, hfixed]
  simp
  omega

theorem length_friendsDelete (src des : Bytes) :
    (sql friendsDelete [src, des]).length = 55 + src.length + des.length := by
  have hfixed : friendsDeleteTemplate.fixedLength = 51 := rfl
  rw [sql_friendsDelete, friendsDeleteTemplate.length_render [src, des] rfl, hfixed]
  simp
  omega

theorem length_usersSelect (name : Bytes) :
    (sql usersSelect [name]).length = 39 + name.length := by
  have hfixed : usersSelectTemplate.fixedLength = 37 := rfl
  rw [sql_usersSelect, usersSelectTemplate.length_render [name] rfl, hfixed]
  simp
  omega

theorem length_messageInsert (src des words time : Bytes) :
    (sql messageInsert [src, des, words, time]).length =
      67 + src.length + des.length + words.length + time.length := by
  have hfixed : messageInsertTemplate.fixedLength = 59 := rfl
  rw [sql_messageInsert, messageInsertTemplate.length_render [src, des, words, time] rfl, hfixed]
  simp
  omega

/-! ## The time -/

theorem plain_append {a b : Bytes} (ha : Plain a) (hb : Plain b) : Plain (a ++ b) :=
  ⟨by simp [ha.1, hb.1], by simp [ha.2, hb.2]⟩

/-- The numbers of a clock have one or two digits. -/
theorem decimal_of_lt {n : ℕ} (h : n < 61) :
    Plain (decimal n) ∧ 0 ∉ decimal n ∧ 1 ≤ (decimal n).length ∧ (decimal n).length ≤ 2 := by
  have hall : ∀ i : Fin 61, Plain (decimal i) ∧ 0 ∉ decimal i ∧
      1 ≤ (decimal i).length ∧ (decimal i).length ≤ 2 := by
    decide
  exact hall ⟨n, h⟩

/-- The time as text fits its buffer. -/
theorem getMsgTime_eq (now : Clock) :
    getMsgTime now =
      decimal now.hour ++ (58 :: (decimal now.minute ++ (58 :: decimal now.second))) := by
  obtain ⟨-, -, -, hhour⟩ := decimal_of_lt (n := now.hour) (by omega)
  obtain ⟨-, -, -, hminute⟩ := decimal_of_lt (n := now.minute) (by omega)
  obtain ⟨-, -, -, hsecond⟩ := decimal_of_lt now.second.isLt
  have htext : format (utf8 "%d:%d:%d")
      [decimal now.hour, decimal now.minute, decimal now.second] =
        decimal now.hour ++ (58 :: (decimal now.minute ++ (58 :: (decimal now.second ++ [])))) :=
    rfl
  rw [getMsgTime, htext, List.append_nil, snprintf_eq_self]
  simp only [List.length_append, List.length_cons]
  omega

theorem plain_getMsgTime (now : Clock) : Plain (getMsgTime now) := by
  obtain ⟨hhour, -⟩ := decimal_of_lt (n := now.hour) (by omega)
  obtain ⟨hminute, -⟩ := decimal_of_lt (n := now.minute) (by omega)
  obtain ⟨hsecond, -⟩ := decimal_of_lt now.second.isLt
  rw [getMsgTime_eq]
  have hcolon : ∀ {a : Bytes}, Plain a → Plain (58 :: a) := fun ha =>
    plain_cons.mpr ⟨by decide, ha⟩
  exact plain_append hhour (hcolon (plain_append hminute (hcolon hsecond)))

/-! ## The answers -/

/-- A look-up fails exactly if its query finds no row. -/
theorem lookupCode_rows (rows : List Row) :
    lookupCode (some (some rows)) = some (if rows = [] then .failed else .success) := by
  rcases rows with - | ⟨row, rows⟩
  · rfl
  · simp [lookupCode]

theorem friendRows_eq_nil_iff (t : Tables) (src des : Bytes) :
    friendRows t src des = [] ↔ ¬ (src, des) ∈ t.friends := by
  rw [friendRows, List.map_eq_nil_iff, List.filter_eq_nil_iff]
  simp only [decide_eq_true_eq, List.forall_mem_ne']

theorem userRows_eq_nil_iff (t : Tables) (name : Bytes) :
    userRows t name = [] ↔ ¬ ∃ row ∈ t.users, row.username = name := by
  simp [userRows]

section
variable {m : Mysql} (hm : m.Documented) {t : Tables} {pstData : MsgData} {src des : CStr}
  (hsrc : pstData.srcNameStr = src)
  (hsrcPlain : Plain src.bytes) (hdesPlain : Plain des.bytes)
include hm

include hsrc hsrcPlain hdesPlain in
/-- The friend look-up is exact on names that fit their arrays. -/
theorem checkReciverIsFriend_documented (hsrcLen : src.strlen ≤ maxNameLen)
    (hdesLen : des.strlen ≤ maxNameLen) :
    checkReciverIsFriend m t pstData des =
      some (if (src.bytes, des.bytes) ∈ t.friends then .success else .failed) := by
  have hfits : (sql friendsSelect [src.bytes, des.bytes]).length < 128 := by
    rw [length_friendsSelect]
    simp only [CStr.strlen, maxNameLen] at hsrcLen hdesLen
    omega
  rw [checkReciverIsFriend, if_pos hm.connected, hsrc, snprintf_eq_self hfits,
    hm.friendsSelect t _ _ hsrcPlain hdesPlain, lookupCode_rows]
  simp only [friendRows_eq_nil_iff, ite_not]

include hdesPlain in
/-- The user look-up is exact on names of at most 24 bytes. -/
theorem checkUserIsExist_documented (hdesLen : des.strlen ≤ 24) :
    checkUserIsExist m t des =
      some (if ∃ row ∈ t.users, row.username = des.bytes then .success else .failed) := by
  have hfits : (sql usersSelect [des.bytes]).length < 64 := by
    rw [length_usersSelect]
    simp only [CStr.strlen] at hdesLen
    omega
  rw [checkUserIsExist, if_pos hm.connected, snprintf_eq_self hfits,
    hm.usersSelect t _ hdesPlain, lookupCode_rows]
  simp only [userRows_eq_nil_iff, ite_not]

include hsrc hsrcPlain hdesPlain in
/-- The insert stores the row if its statement fits the buffer, and nothing if not. -/
theorem insertUserMsg2Mysql_documented (hbodyPlain : Plain pstData.pDataStr.bytes)
    (now : Clock) :
    insertUserMsg2Mysql m t now pstData des =
      some (if src.strlen + des.strlen + pstData.pDataStr.strlen +
          (getMsgTime now).length ≤ 60 then
        { t with message := t.message ++
          [⟨src.bytes, des.bytes, pstData.pDataStr.bytes, getMsgTime now⟩] }
      else t) := by
  have hlen : (sql messageInsert [src.bytes, des.bytes, pstData.pDataStr.bytes,
      getMsgTime now]).length = 67 + src.strlen + des.strlen + pstData.pDataStr.strlen +
        (getMsgTime now).length :=
    length_messageInsert _ _ _ _
  rw [insertUserMsg2Mysql, if_pos hm.connected, hsrc]
  by_cases hfits : src.strlen + des.strlen + pstData.pDataStr.strlen +
      (getMsgTime now).length ≤ 60
  · rw [if_pos hfits, snprintf_eq_self (by omega), hm.messageInsert t _ _ _ _ hsrcPlain
      hdesPlain hbodyPlain (plain_getMsgTime now), Option.getD_some]
  · have hcut : unfinished (snprintf 128 (sql messageInsert [src.bytes, des.bytes,
        pstData.pDataStr.bytes, getMsgTime now])) = true := by
      rw [sql_messageInsert] at hlen ⊢
      exact unfinished_take_messageInsert hsrcPlain hdesPlain hbodyPlain
        (plain_getMsgTime now) (by omega) (by omega)
    rw [if_neg hfits, hm.unfinishedModify t _ hcut, Option.getD_none]

end

end ChatRoom
