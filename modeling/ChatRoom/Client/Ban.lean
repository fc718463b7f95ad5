import ChatRoom.Client.File
import ChatRoom.Core.MysqlClient
import ChatRoom.Core.Numbers

/-!
# The ban of a user

`IsBan` of `mysql.c`, which the client's menu asks before it opens a chat dialogue, and the
statement of `banOne` of `client_send.c`, by which an administrator sets the ban.
-/

namespace ChatRoom

open CString SqlText

/-! ## The query -/

/-- What lies in the local variables of `IsBan` before it writes to them: `flag`, and the
memory behind the single character `isBan`. -/
structure Unwritten where
  flag : Bool
  behindIsBan : Bytes

/-- A column of a row, as a NUL-terminated text. -/
def column (row : Row) (i : ℕ) : Bytes := (row[i]?).getD [] ++ [0]

/-- `IsBan`; `none` is the end of the client process. -/
def IsBan (m : Mysql) (t : Tables) (pUsername : CStr) (unwritten : Unwritten) : Option Bool :=
  if m.connect then
    match m.querySelect t (snprintf 64 (sql isBanSelect [pUsername.bytes])) with
    | none => none
    | some none => some unwritten.flag
    | some (some rows) =>
        match rows.find? fun pSqlRow => pUsername = cstr (column pSqlRow 0) with
        | none => some unwritten.flag
        | some pSqlRow =>
            let isBan := (column pSqlRow 1).take 1
            -- `atoi` is given the address of one character and reads on behind it
            some (atoi (isBan ++ unwritten.behindIsBan) ≠ 0)
  else none

/-- What `banOne` does to the tables; without a connection it does nothing. -/
def banOne (m : Mysql) (t : Tables) (flag : Bool) (username : CStr) : Tables :=
  if m.connect then
    let querySql :=
      snprintf 64 (sql banUpdate [if flag then utf8 "1" else utf8 "0", username.bytes])
    (m.queryModify t querySql).getD t
  else t

/-- What `banOne` returns: without a connection, and when its statement is rejected, a failure. -/
def banOneErrCode (m : Mysql) (t : Tables) (flag : Bool) (username : CStr) : ErrCode :=
  if m.connect then
    let querySql :=
      snprintf 64 (sql banUpdate [if flag then utf8 "1" else utf8 "0", username.bytes])
    if (m.queryModify t querySql).isSome then .success else .failed
  else .failed

/-- The `users` row of the name has its ban set. -/
def Tables.banned (t : Tables) (name : CStr) : Bool :=
  (t.users.find? (·.username = name.bytes)).any (·.ban = utf8 "1")

/-! ## The answer -/

/-- The ban query is cut inside the name when the name has more than 13 bytes. -/
theorem unfinished_snprintf_isBanSelect {name : Bytes} (hname : Plain name)
    (hlong : 13 < name.length) :
    unfinished (snprintf 64 (sql isBanSelect [name])) = true := by
  let head : Bytes := utf8 "select username,ban from users where username = "
  have htext : sql isBanSelect [name] = (head ++ [39]) ++ (name ++ [39]) := by
    rw [sql_isBanSelect]
    rfl
  have hhead : (head ++ [39]).length = 49 := rfl
  have hcut : (sql isBanSelect [name]).take 63 = (head ++ [39]) ++ name.take 14 := by
    rw [htext, List.take_append, hhead, List.take_of_length_le (by rw [hhead]; decide),
      List.take_append_of_le_length (by omega)]
  have hopen : scan (.code 0) (head ++ [39]) = .literal 0 := rfl
  have hscan : scan (.code 0) ((sql isBanSelect [name]).take 63) = .literal 0 := by
    rw [hcut, scan_append, hopen, scan_literal (hname.take 14)]
  rw [snprintf, unfinished, hscan]

/-- The loop over the rows of the ban query stops at the first row of the name. -/
theorem find?_banRows {t : Tables} {name : CStr} {row : UserRow}
    (h : t.users.find? (·.username = name.bytes) = some row) :
    (banRows t name.bytes).find? (fun pSqlRow => name = cstr (column pSqlRow 0)) =
      some [row.username, row.ban] := by
  have hsame : (fun r : UserRow => decide (decide (r.username = name.bytes) = true ∧
      decide (name = cstr (column [r.username, r.ban] 0)) = true)) =
        fun r => decide (r.username = name.bytes) := by
    funext r
    simp only [decide_eq_true_eq, decide_eq_decide]
    refine and_iff_left_of_imp fun hr => ?_
    have htext : column [r.username, r.ban] 0 = name.bytes ++ 0 :: [] := by
      rw [← hr]
      rfl
    rw [htext, cstr_append_zero]
  rw [banRows, List.find?_map, List.find?_filter]
  simp only [Function.comp_def]
  rw [hsame, h, Option.map_some]

/-- The client of a banned user learns of the ban, or ends. -/
theorem IsBan_of_banned {m : Mysql} (hm : m.DocumentedClient) {t : Tables} {name : CStr}
    (hname : Plain name.bytes) (hbanned : t.banned name = true) (unwritten : Unwritten) :
    IsBan m t name unwritten = none ∨ IsBan m t name unwritten = some true := by
  by_cases hlong : 13 < name.strlen
  · left
    have hcut := unfinished_snprintf_isBanSelect hname hlong
    rw [IsBan, if_pos hm.connected, hm.unfinishedSelect t _ hcut]
  · right
    have hfits : (sql isBanSelect [name.bytes]).length < 64 := by
      rw [length_isBanSelect]
      simp only [CStr.strlen] at hlong
      omega
    obtain ⟨row, hrow, hban⟩ : ∃ row, t.users.find? (·.username = name.bytes) = some row ∧
        row.ban = utf8 "1" := by
      simpa [Tables.banned, Option.any_eq_true] using hbanned
    rw [IsBan, if_pos hm.connected, snprintf_eq_self hfits, hm.isBanSelect t _ hname]
    simp only [find?_banRows hrow]
    have hfirst : (column [row.username, row.ban] 1).take 1 = utf8 "1" := by
      rw [hban]
      rfl
    have hone : utf8 "1" ++ unwritten.behindIsBan = 49 :: unwritten.behindIsBan := rfl
    rw [hfirst, hone, decide_eq_true (atoi_one_ne_zero _)]

end ChatRoom
