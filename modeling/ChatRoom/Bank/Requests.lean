import ChatRoom.Bank.Tables
import ChatRoom.Support.Program
import Mathlib.Data.PNat.Basic

/-!
# The requests of the bank

The functions `msgid_1` to `msgid_8` of `bank.cpp` and `procmessage` of `bankserver.cpp`, as
programs over the statements that they execute on a connection.  A statement may fail with a
positive error code of the database.
-/

namespace ChatRoom.Bank

open CString Transactions Program

/-! ## Statements -/

/-- The queries, with their arguments. -/
inductive Query where
  | operatorRsts (oper_id password : CStr)
  | customRsts (userid password : CStr)
  | ye (userid : CStr)
  | targetRsts (userid : CStr)
  | jylog (userid : CStr)

/-- A row of the result set. -/
abbrev Query.Row : Query → Type
  | operatorRsts _ _ => ℤ
  | customRsts _ _ => ℤ
  | ye _ => ℚ
  | targetRsts _ => ℤ
  | jylog _ => ℤ × ℚ

def Tables.select (t : Tables) : (query : Query) → List query.Row
  | .operatorRsts oper_id password =>
      (t.operator.filter fun r => r.oper_id = oper_id ∧ r.password = password).map Operator.rsts
  | .customRsts userid password =>
      (t.custominfo.filter fun r => r.userid = userid ∧ r.password = password).map Customer.rsts
  | .ye userid => (t.custominfo.filter (·.userid = userid)).map Customer.ye
  | .targetRsts userid =>
      (t.custominfo.filter fun r => r.userid = userid ∧ (r.rsts = 1 ∨ r.rsts = 2)).map Customer.rsts
  | .jylog userid => (t.jylog.filter (·.userid = userid)).map fun r => (r.opertype, r.je)

/-- Numerals stand for connections: there are five of them. -/
instance neZeroFive : NeZero 5 := ⟨by decide⟩

/-- The calls on one of the five connections. -/
inductive BankOp where
  | select (conn : Fin 5) (query : Query)
  | execute (conn : Fin 5) (block : Block)
  | commit (conn : Fin 5)
  | rollback (conn : Fin 5)

/-- The answer: a result set or success, or the code of an error. -/
abbrev BankOp.Res : BankOp → Type
  | select _ query => Except ℕ+ (List query.Row)
  | execute _ _ => Except ℕ+ Unit
  | commit _ => Unit
  | rollback _ => Unit

abbrev BankProg := Prog BankOp BankOp.Res

def select (conn : Fin 5) (query : Query) : BankProg (Except ℕ+ (List query.Row)) :=
  Prog.request (BankOp.select conn query)

def execute (conn : Fin 5) (block : Block) : BankProg (Except ℕ+ Unit) :=
  Prog.request (BankOp.execute conn block)

def commit (conn : Fin 5) : BankProg Unit := Prog.request (BankOp.commit conn)

def rollback (conn : Fin 5) : BankProg Unit := Prog.request (BankOp.rollback conn)

/-- A bound variable after `next`: it keeps its old value if there is no row. -/
def fetched {α : Type} (old : α) : Except ℕ+ (List α) → α
  | .error _ => old
  | .ok rows => rows.headD old

/-- `m_cda.rc` after the execution. -/
def rcOf : Except ℕ+ Unit → ℤ
  | .error code => (code : ℕ)
  | .ok _ => 0

/-! ## The blocks -/

def insertBlock (stbank : StBank) : Block where
  update := .insertCustom stbank.userid stbank.password
  log := ⟨stbank.oper_id, stbank.userid, 1, 0⟩

def depositBlock (stbank : StBank) : Block where
  update := .addYe stbank.userid stbank.je
  log := ⟨stbank.oper_id, stbank.userid, 2, stbank.je⟩

def debitBlock (stbank : StBank) : Block where
  update := .addYe stbank.userid (-stbank.je)
  log := ⟨stbank.oper_id, stbank.userid, 3, stbank.je⟩

/-- The second block of a transfer has the same `opertype` as the first. -/
def creditBlock (stbank : StBank) : Block where
  update := .addYe stbank.userid1 stbank.je
  log := ⟨stbank.oper_id, stbank.userid1, 3, stbank.je⟩

/-! ## The functions of the requests -/

/-- `stbank->rsts` is 0 before the fetch. -/
def msgid_1 (conn : Fin 5) (stbank : StBank) : BankProg ℤ := do
  let rows ← select conn (.operatorRsts stbank.oper_id stbank.password)
  let rsts := fetched 0 rows
  return if rsts = 1 then 0 else -1

def msgid_2 (conn : Fin 5) (stbank : StBank) : BankProg ℤ := do
  let executed ← execute conn (insertBlock stbank)
  return rcOf executed

def msgid_3 (conn : Fin 5) (stbank : StBank) : BankProg ℤ := do
  let rows ← select conn (.customRsts stbank.userid stbank.password)
  let rsts := fetched 0 rows
  return if rsts = 1 then 0 else -1

def msgid_4 (conn : Fin 5) (stbank : StBank) : BankProg ℤ := do
  let executed ← execute conn (depositBlock stbank)
  return rcOf executed

def msgid_5 (conn : Fin 5) (stbank : StBank) : BankProg ℤ := do
  match ← select conn (.ye stbank.userid) with
  | .error code => return (code : ℕ)
  | .ok rows =>
      -- without a row the balance is taken to be 0
      let ye := rows.headD 0
      if ye < stbank.je then return -1
      else
        let executed ← execute conn (debitBlock stbank)
        return rcOf executed

def msgid_6 (conn : Fin 5) (stbank : StBank) : BankProg ℤ := do
  match ← select conn (.ye stbank.userid) with
  | .error code => return (code : ℕ)
  | .ok rows =>
      let ye := rows.headD 0
      if ye < stbank.je then return -1
      else
        match ← select conn (.targetRsts stbank.userid1) with
        | .error code => return (code : ℕ)
        | .ok rows =>
            let rsts := rows.headD 0
            if rsts ≠ 1 ∧ rsts ≠ 2 then return -2
            else
              match ← execute conn (debitBlock stbank) with
              | .error code => return (code : ℕ)
              | .ok _ =>
                  let executed ← execute conn (creditBlock stbank)
                  return rcOf executed

/-- The balance, if there is one. -/
def msgid_7 (conn : Fin 5) (stbank : StBank) : BankProg (ℤ × ℚ) := do
  match ← select conn (.ye stbank.userid) with
  | .ok (ye :: _) => return (0, ye)
  | _ => return (-1, 0)

/-- The rows of the log, which the caller sends one by one. -/
def msgid_8 (conn : Fin 5) (stbank : StBank) : BankProg (ℤ × List (ℤ × ℚ)) := do
  match ← select conn (.jylog stbank.userid) with
  | .error code => return ((code : ℕ), [])
  | .ok rows => return (0, rows)

/-! ## `procmessage` -/

/-- An answer to the client; `ye` and the rows of the log only follow to their own requests. -/
structure Reply where
  retno : ℤ
  retmesg : String
  ye : Option ℚ
  vbank : List (ℤ × ℚ)
deriving DecidableEq

def reply (retno : ℤ) (retmesg : String) : Reply := ⟨retno, retmesg, none, []⟩

/-- `procmessage`, with the connection whose mutex it has got, if any.  A request of another type is
not answered. -/
def procmessage (iconn : Option (Fin 5)) (stbank : StBank) : BankProg (Option Reply) :=
  match iconn with
  | none => return some (reply (-1) "系统繁忙。")
  | some pconn =>
      if stbank.msgid = 1 then do
        let iret ← msgid_1 pconn stbank
        return some (if iret = 0 then reply 0 "ok" else reply (-1) "操作员身份认证失败。")
      else if stbank.msgid = 2 then do
        let iret ← msgid_2 pconn stbank
        if iret = 0 then
          commit pconn
          return some (reply 0 "ok")
        else
          rollback pconn
          return some (reply (-1) "系统故障。")
      else if stbank.msgid = 3 then do
        let iret ← msgid_3 pconn stbank
        return some (if iret = 0 then reply 0 "ok" else reply (-1) "客户身份认证失败。")
      else if stbank.msgid = 4 then do
        let iret ← msgid_4 pconn stbank
        if iret = 0 then
          commit pconn
          return some (reply 0 "ok")
        else
          rollback pconn
          return some (reply (-1) "系统故障。")
      else if stbank.msgid = 5 then do
        let iret ← msgid_5 pconn stbank
        if iret = 0 then
          -- `conn` is the array of the connections, and so its first one
          commit 0
          return some (reply 0 "ok")
        else if iret = -1 then
          rollback pconn
          return some (reply (-1) "余额不足。")
        else if 0 < iret then
          rollback pconn
          return some (reply (-1) "系统故障。")
        else return none
      else if stbank.msgid = 6 then do
        let iret ← msgid_6 pconn stbank
        if iret = 0 then
          commit 0
          return some (reply 0 "ok")
        else if iret = -1 then
          rollback pconn
          return some (reply (-1) "余额不足。")
        else if iret = -2 then
          rollback pconn
          return some (reply (-2) "转入帐户非法。")
        else if 0 < iret then
          rollback pconn
          return some (reply (-1) "系统故障。")
        else return none
      else if stbank.msgid = 7 then do
        let (iret, ye) ← msgid_7 pconn stbank
        return some (if iret = 0 then { reply 0 "ok" with ye := some ye }
          else reply (-1) "客户信息不存在。")
      else if stbank.msgid = 8 then do
        let (iret, vbank) ← msgid_8 pconn stbank
        return some (if iret = 0 then { reply 0 "ok" with vbank := vbank }
          else reply (-1) "系统故障。")
      else return none

/-! ## The statements on the store -/

/-- A change waits while another connection holds the lock of its row. -/
def Change.Waits (store : Store (Fin 5) Change) (conn : Fin 5) (c : Change) : Prop :=
  ∃ row ∈ c.locks, store.Locked Change.locks conn row

instance (store : Store (Fin 5) Change) (conn : Fin 5) (c : Change) :
    Decidable (c.Waits store conn) :=
  inferInstanceAs (Decidable (∃ _ ∈ _, _))

/-- One call on the store over the tables that were there at the start; `fault` makes it fail.  A
call without an outcome waits, or cannot succeed.  The codes of `commit` and `rollback` are not
looked at. -/
def perform (t : Tables) (request : Request) (fault : Option ℕ+) (op : BankOp)
    (store : Store (Fin 5) Change) : Option (Store (Fin 5) Change × op.Res) :=
  match op, fault with
  | .select _ _, some code => some (store, .error code)
  | .select conn query, none => some (store, .ok ((t.after (store.seen conn)).select query))
  | .execute _ _, some code => some (store, .error code)
  | .execute conn block, none =>
      match (t.after (store.seen conn)).executes request block with
      | none => none
      | some c => if c.Waits store conn then none else some (store.execute conn c, .ok ())
  | .commit _, some _ => some (store, ())
  | .commit conn, none => some (store.commit conn, ())
  | .rollback _, some _ => some (store, ())
  | .rollback conn, none => some (store.rollback conn, ())

end ChatRoom.Bank
