import ChatRoom.Server.Lookups
import ChatRoom.Support.StepSystem
import Mathlib.Data.List.Perm.Basic

/-!
# The mailbox

Messages to a user who is not registered wait in the table `message`.  When the user
logs in, `getUserMsgFromMysql` of `mysql.c` prints the rows and deletes them, by two
statements with nothing that ties the second to the first.

The function stands first as one call on fixed tables, then cut into its statements so
that the server can insert rows in between.
-/

namespace ChatRoom

open CString SqlText StepSystem

/-! ## One call -/

def mailboxHeading : Bytes := utf8 "您收到的离线消息:"

/-- The line for a row of the result set, formatted into 64 bytes. -/
def displayLine (pRow : Row) : Bytes := snprintf 64 (format (utf8 "%s:%s\t%s") pRow)

/-- The lines that a call printed and the tables after it. -/
structure MailboxResult where
  printed : List Bytes
  tables : Tables

/-- `none` is the end of the process when no connection is made. -/
def getUserMsgFromMysql (m : Mysql) (t : Tables) (pSrcName : CStr) : Option MailboxResult :=
  if m.connect then
    let deleteSql := snprintf 128 (sql messageDelete [pSrcName.bytes])
    match m.querySelect t (snprintf 128 (sql messageSelect [pSrcName.bytes])) with
    -- the connection is closed here, and the delete goes to it nevertheless
    | none => some ⟨[], m.queryClosed t deleteSql⟩
    | some none => some ⟨[], (m.queryModify t deleteSql).getD t⟩
    | some (some rows) =>
        some ⟨mailboxHeading :: rows.map displayLine, (m.queryModify t deleteSql).getD t⟩
  else none

theorem length_messageSelect (name : Bytes) :
    (sql messageSelect [name]).length = 59 + name.length := by
  have hfixed : messageSelectTemplate.fixedLength = 57 := rfl
  rw [sql_messageSelect, messageSelectTemplate.length_render [name] rfl, hfixed]
  simp
  omega

theorem length_messageDelete (name : Bytes) :
    (sql messageDelete [name]).length = 37 + name.length := by
  have hfixed : messageDeleteTemplate.fixedLength = 35 := rfl
  rw [sql_messageDelete, messageDeleteTemplate.length_render [name] rfl, hfixed]
  simp
  omega

/-- Both statements fit their buffer, so a call prints and deletes what the tables hold
for the name. -/
theorem getUserMsgFromMysql_documented {m : Mysql} (hm : m.Documented) (t : Tables)
    {name : CStr} (hplain : Plain name.bytes) (hlen : name.strlen ≤ maxNameLen) :
    getUserMsgFromMysql m t name =
      some ⟨mailboxHeading :: (messageRows t name.bytes).map displayLine,
        { t with message := t.message.filter (·.desName ≠ name.bytes) }⟩ := by
  simp only [CStr.strlen, maxNameLen] at hlen
  have hselect : (sql messageSelect [name.bytes]).length < 128 := by
    rw [length_messageSelect]
    omega
  have hdelete : (sql messageDelete [name.bytes]).length < 128 := by
    rw [length_messageDelete]
    omega
  rw [getUserMsgFromMysql, if_pos hm.connected, snprintf_eq_self hselect,
    hm.messageSelect t _ hplain]
  simp only [snprintf_eq_self hdelete, hm.messageDelete t _ hplain, Option.getD_some]

/-! ## The call among inserts -/

/-- The rows that wait for a name. -/
def waitingFor (name : Bytes) (message : List MessageRow) : List MessageRow :=
  message.filter (·.desName = name)

/-- Where the call stands.  `selected` holds the result set on the server, `fetching` the
rows that `mysql_fetch_row` has not returned yet. -/
inductive MailboxPhase where
  | idle
  | selected (rows : List MessageRow)
  | fetching (pResult : List MessageRow)
  | deleting
deriving DecidableEq

/-- The table together with a call.  `printed` and `removed` are the rows that the last
call has printed and deleted.  The other two fields record what went on in the database:
`atSelect` the rows that waited at the select, `answered` that both the select and
`mysql_store_result` succeeded. -/
structure Mailbox where
  message : List MessageRow
  phase : MailboxPhase
  printed : List MessageRow
  removed : List MessageRow
  atSelect : List MessageRow
  answered : Bool

/-- The atomic steps.  Each statement and `mysql_store_result` may fail; what becomes of a
delete on the connection that a failed select has closed is left open. -/
inductive MailboxStep where
  | insert (row : MessageRow)
  | select (ok : Bool)
  | storeResult (ok : Bool)
  | fetchRow
  | delete (ok : Bool)
deriving DecidableEq

namespace Mailbox

def init (message : List MessageRow) : Mailbox := ⟨message, .idle, [], [], [], false⟩

def step (name : Bytes) (s : Mailbox) : MailboxStep → Option Mailbox
  | .insert row => some { s with message := s.message ++ [row] }
  | .select ok =>
      match s.phase with
      | .idle =>
          let rows := waitingFor name s.message
          some
            { s with
              -- a failed select falls through to the delete
              phase := if ok then .selected rows else .deleting
              printed := []
              removed := []
              atSelect := rows
              answered := false }
      | _ => none
  | .storeResult ok =>
      match s.phase with
      | .selected rows =>
          some { s with phase := if ok then .fetching rows else .deleting, answered := ok }
      | _ => none
  | .fetchRow =>
      match s.phase with
      | .fetching (pRow :: pResult) =>
          some { s with phase := .fetching pResult, printed := s.printed ++ [pRow] }
      | .fetching [] => some { s with phase := .deleting }
      | _ => none
  | .delete ok =>
      match s.phase with
      | .deleting =>
          some
            { s with
              phase := .idle
              message := if ok then s.message.filter (·.desName ≠ name) else s.message
              removed := if ok then waitingFor name s.message else [] }
      | _ => none

/-- Every row that the delete removed was printed by the same call. -/
def DeletedSeen (s : Mailbox) : Prop := s.removed.Subperm s.printed

/-- The condition on a delete that succeeds: no row has come in since the select, and the
result set was received unless it was empty. -/
def Undisturbed (name : Bytes) (s : Mailbox) : MailboxStep → Prop
  | .delete true =>
      waitingFor name s.message = s.atSelect ∧ (s.answered = true ∨ s.atSelect = [])
  | _ => True

/-! What each step does, guards included. -/

section
variable {name : Bytes} {s s' : Mailbox}

theorem step_insert {row : MessageRow} (h : s.step name (.insert row) = some s') :
    s' = { s with message := s.message ++ [row] } :=
  (Option.some.inj h).symm

theorem step_select {ok : Bool} (h : s.step name (.select ok) = some s') :
    s.phase = .idle ∧
      s' = { s with
        phase := if ok then .selected (waitingFor name s.message) else .deleting
        printed := []
        removed := []
        atSelect := waitingFor name s.message
        answered := false } := by
  cases hphase : s.phase with
  | idle =>
      simp only [step, hphase, Option.some.injEq] at h
      exact ⟨rfl, h.symm⟩
  | selected | fetching | deleting => simp [step, hphase] at h

theorem step_storeResult {ok : Bool} (h : s.step name (.storeResult ok) = some s') :
    ∃ rows, s.phase = .selected rows ∧
      s' = { s with phase := if ok then .fetching rows else .deleting, answered := ok } := by
  cases hphase : s.phase with
  | selected rows =>
      simp only [step, hphase, Option.some.injEq] at h
      exact ⟨rows, rfl, h.symm⟩
  | idle | fetching | deleting => simp [step, hphase] at h

theorem step_fetchRow (h : s.step name .fetchRow = some s') :
    (∃ pRow pResult, s.phase = .fetching (pRow :: pResult) ∧
        s' = { s with phase := .fetching pResult, printed := s.printed ++ [pRow] }) ∨
      (s.phase = .fetching [] ∧ s' = { s with phase := .deleting }) := by
  cases hphase : s.phase with
  | fetching pResult =>
      cases pResult with
      | nil =>
          simp only [step, hphase, Option.some.injEq] at h
          exact .inr ⟨rfl, h.symm⟩
      | cons pRow pResult =>
          simp only [step, hphase, Option.some.injEq] at h
          exact .inl ⟨pRow, pResult, rfl, h.symm⟩
  | idle | selected | deleting => simp [step, hphase] at h

theorem step_delete {ok : Bool} (h : s.step name (.delete ok) = some s') :
    s.phase = .deleting ∧
      s' = { s with
        phase := .idle
        message := if ok then s.message.filter (·.desName ≠ name) else s.message
        removed := if ok then waitingFor name s.message else [] } := by
  cases hphase : s.phase with
  | deleting =>
      simp only [step, hphase, Option.some.injEq] at h
      exact ⟨rfl, h.symm⟩
  | idle | selected | fetching => simp [step, hphase] at h

end

/-! ## A call without inserts -/

/-- The steps of one call, for the size of the result set and the outcomes of the select,
of `mysql_store_result` and of the delete. -/
def callSteps (rows : ℕ) (select store delete : Bool) : List MailboxStep :=
  let fetch := if store then List.replicate (rows + 1) .fetchRow else []
  .select select :: ((if select then .storeResult store :: fetch else []) ++ [.delete delete])

/-- The fetch loop prints all rows that are left. -/
theorem run_fetchRow (name : Bytes) {s : Mailbox} {pResult : List MessageRow}
    (hphase : s.phase = .fetching pResult) :
    run (step name) s (List.replicate (pResult.length + 1) .fetchRow) =
      some { s with phase := .deleting, printed := s.printed ++ pResult } := by
  induction pResult generalizing s with
  | nil => simp [step, hphase]
  | cons pRow pResult ih =>
      have hstep : s.step name .fetchRow =
          some { s with phase := .fetching pResult, printed := s.printed ++ [pRow] } := by
        simp only [step, hphase]
      rw [List.length_cons, List.replicate_succ, run_cons, hstep, Option.bind_some, ih rfl]
      simp

/-- What a call does when no row comes in meanwhile. -/
theorem run_callSteps (name : Bytes) {s : Mailbox} (hidle : s.phase = .idle)
    (select store delete : Bool) :
    let rows := waitingFor name s.message
    run (step name) s (callSteps rows.length select store delete) =
      some
        { message := if delete then s.message.filter (·.desName ≠ name) else s.message
          phase := .idle
          printed := if select && store then rows else []
          removed := if delete then rows else []
          atSelect := rows
          answered := select && store } := by
  intro rows
  rcases select with - | -
  · simp [callSteps, step, hidle, rows]
  rcases store with - | -
  · simp [callSteps, step, hidle, rows]
  · let fetching : Mailbox :=
      ⟨s.message, .fetching rows, [], [], rows, true⟩
    have hfetch := run_fetchRow name (s := fetching) rfl
    simp only [callSteps, if_true, List.cons_append, run_cons, step, hidle, Option.bind_some]
    rw [run_append, hfetch]
    simp [step, fetching, rows]

/-- The function is the uninterrupted run of its steps, whatever the outcomes of its
queries: it prints the same rows and leaves the same table. -/
theorem getUserMsgFromMysql_run {m : Mysql} {t : Tables} {name : CStr}
    {select store delete : Bool} (hconnect : m.connect = true)
    (hselect : m.querySelect t (snprintf 128 (sql messageSelect [name.bytes])) =
      if select then some (if store then some (messageRows t name.bytes) else none) else none)
    (hdelete : (if select then
          (m.queryModify t (snprintf 128 (sql messageDelete [name.bytes]))).getD t
        else m.queryClosed t (snprintf 128 (sql messageDelete [name.bytes]))).message =
      if delete then t.message.filter (·.desName ≠ name.bytes) else t.message) :
    ∃ result s', getUserMsgFromMysql m t name = some result ∧
      run (step name.bytes) (init t.message)
        (callSteps (waitingFor name.bytes t.message).length select store delete) = some s' ∧
      result.tables.message = s'.message ∧
      result.printed.tail =
        s'.printed.map fun row => displayLine [row.srcName, row.words, row.time] := by
  have hrun := run_callSteps name.bytes (s := init t.message) rfl select store delete
  rw [getUserMsgFromMysql, if_pos hconnect]
  rcases select with - | -
  · simp only [hselect, Bool.false_eq_true, if_false]
    exact ⟨_, _, rfl, hrun, hdelete, rfl⟩
  rcases store with - | -
  · simp only [hselect, Bool.false_eq_true, if_false, if_true]
    exact ⟨_, _, rfl, hrun, hdelete, rfl⟩
  · simp only [hselect, if_true]
    refine ⟨_, _, rfl, hrun, hdelete, ?_⟩
    simp [messageRows, waitingFor, init, Function.comp_def]

/-- The server's insert is an `insert` step, or none when its statement does not fit. -/
theorem insertUserMsg2Mysql_insert {m : Mysql} (hm : m.Documented) {t : Tables}
    {pstData : MsgData} {src des : CStr} (hsrc : pstData.srcNameStr = src)
    (hsrcPlain : Plain src.bytes) (hdesPlain : Plain des.bytes)
    (hbodyPlain : Plain pstData.pDataStr.bytes) (now : Clock) (name : Bytes) {s : Mailbox}
    (hmessage : t.message = s.message) :
    ∃ t', insertUserMsg2Mysql m t now pstData des = some t' ∧
      (t'.message = s.message ∨
        ∃ row s', s.step name (.insert row) = some s' ∧ t'.message = s'.message) := by
  have hinsert := insertUserMsg2Mysql_documented hm (t := t) hsrc hsrcPlain hdesPlain
    hbodyPlain now
  by_cases hfits : src.strlen + des.strlen + pstData.pDataStr.strlen +
      (getMsgTime now).length ≤ 60
  · rw [if_pos hfits] at hinsert
    exact ⟨_, hinsert, .inr ⟨_, _, rfl, by rw [hmessage]⟩⟩
  · rw [if_neg hfits] at hinsert
    exact ⟨t, hinsert, .inl hmessage⟩

/-! ## The invariant -/

/-- What holds between the steps.  While the call runs, the rows of its select still wait,
with any later ones behind them; what it has printed and what it has still to fetch are
these rows. -/
structure Inv (name : Bytes) (s : Mailbox) : Prop where
  seen : s.DeletedSeen
  waiting : s.phase ≠ .idle → s.atSelect <+: waitingFor name s.message
  selected : ∀ rows, s.phase = .selected rows → rows = s.atSelect ∧ s.printed = []
  fetching : ∀ pResult, s.phase = .fetching pResult →
    s.printed ++ pResult = s.atSelect ∧ s.answered = true
  deleting : s.phase = .deleting → s.printed = if s.answered then s.atSelect else []

theorem inv_init (name : Bytes) (message : List MessageRow) : (init message).Inv name where
  seen := List.Subperm.refl []
  waiting h := absurd rfl h
  selected _ h := by cases h
  fetching _ h := by cases h
  deleting h := by cases h

section
variable {name : Bytes} {s s' : Mailbox}

theorem waitingFor_append (name : Bytes) (message : List MessageRow) (row : MessageRow) :
    waitingFor name message <+: waitingFor name (message ++ [row]) := by
  rw [waitingFor, waitingFor, List.filter_append]
  exact List.prefix_append _ _

theorem Inv.insert (hs : s.Inv name) {row : MessageRow}
    (h : s.step name (.insert row) = some s') : s'.Inv name := by
  obtain rfl := step_insert h
  exact
    { seen := hs.seen
      waiting := fun hphase => (hs.waiting hphase).trans (waitingFor_append name s.message row)
      selected := hs.selected
      fetching := hs.fetching
      deleting := hs.deleting }

theorem Inv.select {ok : Bool} (h : s.step name (.select ok) = some s') : s'.Inv name := by
  obtain ⟨-, rfl⟩ := step_select h
  cases ok with
  | true =>
      exact
        { seen := List.Subperm.refl []
          waiting := fun _ => List.prefix_refl _
          selected := fun rows hphase => ⟨(MailboxPhase.selected.inj hphase).symm, rfl⟩
          fetching := fun _ hphase => by cases hphase
          deleting := fun hphase => by cases hphase }
  | false =>
      exact
        { seen := List.Subperm.refl []
          waiting := fun _ => List.prefix_refl _
          selected := fun _ hphase => by cases hphase
          fetching := fun _ hphase => by cases hphase
          deleting := fun _ => rfl }

theorem Inv.storeResult (hs : s.Inv name) {ok : Bool}
    (h : s.step name (.storeResult ok) = some s') : s'.Inv name := by
  obtain ⟨rows, hphase, rfl⟩ := step_storeResult h
  obtain ⟨hrows, hprinted⟩ := hs.selected rows hphase
  have hwaiting := hs.waiting (by simp [hphase])
  cases ok with
  | true =>
      refine ⟨hs.seen, fun _ => hwaiting, ?_, ?_, ?_⟩
      · rintro rows' ⟨⟩
      · rintro pResult ⟨⟩
        exact ⟨by rw [hprinted, List.nil_append, hrows], rfl⟩
      · rintro ⟨⟩
  | false =>
      refine ⟨hs.seen, fun _ => hwaiting, ?_, ?_, ?_⟩
      · rintro rows' ⟨⟩
      · rintro pResult ⟨⟩
      · exact fun _ => hprinted

theorem Inv.fetchRow (hs : s.Inv name) (h : s.step name .fetchRow = some s') :
    s'.Inv name := by
  obtain ⟨pRow, pResult, hphase, rfl⟩ | ⟨hphase, rfl⟩ := step_fetchRow h
  all_goals
    obtain ⟨hrows, hanswered⟩ := hs.fetching _ hphase
    have hwaiting := hs.waiting (by simp [hphase])
  · refine ⟨hs.seen.trans (List.sublist_append_left _ _).subperm, fun _ => hwaiting,
      ?_, ?_, ?_⟩
    · rintro rows ⟨⟩
    · rintro rest ⟨⟩
      exact ⟨by rw [List.append_assoc, List.singleton_append, hrows], hanswered⟩
    · rintro ⟨⟩
  · refine ⟨hs.seen, fun _ => hwaiting, ?_, ?_, ?_⟩
    · rintro rows ⟨⟩
    · rintro rest ⟨⟩
    · intro _
      rw [List.append_nil] at hrows
      rw [hanswered, if_pos rfl]
      exact hrows

/-- A prefix covers a list only if it is the whole list. -/
theorem subperm_of_prefix_iff {α : Type*} {a b : List α} (h : a <+: b) :
    b.Subperm a ↔ b = a := by
  constructor
  · intro hsub
    exact (h.eq_of_length_le hsub.length_le).symm
  · rintro rfl
    exact List.Subperm.refl _

/-- A delete removes only what was printed exactly if it was undisturbed. -/
theorem deletedSeen_delete_iff (hs : s.Inv name) {ok : Bool}
    (h : s.step name (.delete ok) = some s') :
    s'.DeletedSeen ↔ s.Undisturbed name (.delete ok) := by
  obtain ⟨hphase, rfl⟩ := step_delete h
  have hprinted := hs.deleting hphase
  have hwaiting := hs.waiting (by simp [hphase])
  cases ok with
  | false => exact ⟨fun _ => trivial, fun _ => List.nil_subperm⟩
  | true =>
      change (waitingFor name s.message).Subperm s.printed ↔
        waitingFor name s.message = s.atSelect ∧ (s.answered = true ∨ s.atSelect = [])
      rw [hprinted]
      cases s.answered with
      | true => simpa using subperm_of_prefix_iff hwaiting
      | false =>
          constructor
          · intro hsub
            have hempty : waitingFor name s.message = [] := List.subperm_nil.mp hsub
            have hselect : s.atSelect = [] := List.prefix_nil.mp (hempty ▸ hwaiting)
            exact ⟨hempty.trans hselect.symm, .inr hselect⟩
          · rintro ⟨hsame, hanswered | hselect⟩
            · cases hanswered
            · rw [hsame, hselect]
              exact List.Subperm.refl []

theorem Inv.delete (hs : s.Inv name) {ok : Bool} (hguard : s.Undisturbed name (.delete ok))
    (h : s.step name (.delete ok) = some s') : s'.Inv name := by
  have hseen := (deletedSeen_delete_iff hs h).mpr hguard
  obtain ⟨-, rfl⟩ := step_delete h
  refine ⟨hseen, fun hphase => absurd rfl hphase, ?_, ?_, ?_⟩
  · rintro rows ⟨⟩
  · rintro rest ⟨⟩
  · rintro ⟨⟩

theorem Inv.step (hs : s.Inv name) {a : MailboxStep} (hguard : s.Undisturbed name a)
    (h : s.step name a = some s') : s'.Inv name := by
  cases a with
  | insert row => exact hs.insert h
  | select ok => exact Inv.select h
  | storeResult ok => exact hs.storeResult h
  | fetchRow => exact hs.fetchRow h
  | delete ok => exact hs.delete hguard h

theorem deletedSeen_iff (hs : s.Inv name) {a : MailboxStep} (h : s.step name a = some s') :
    s'.DeletedSeen ↔ s.Undisturbed name a := by
  cases a with
  | delete ok => exact deletedSeen_delete_iff hs h
  | insert row => exact iff_of_true (hs.insert h).seen trivial
  | select ok => exact iff_of_true (Inv.select h).seen trivial
  | storeResult ok => exact iff_of_true (hs.storeResult h).seen trivial
  | fetchRow => exact iff_of_true (hs.fetchRow h).seen trivial

end

/-- In every interleaving, no message is deleted unseen exactly if every delete that
succeeds is undisturbed. -/
theorem everyState_deletedSeen_iff (name : Bytes) (message : List MessageRow)
    (steps : List MailboxStep) :
    EveryState (step name) DeletedSeen (init message) steps ↔
      EveryStep (step name) (Undisturbed name) (init message) steps :=
  everyState_iff_everyStep (fun _ _ _ hs hguard h => hs.step hguard h)
    (fun _ _ _ hs h => deletedSeen_iff hs h) (inv_init name message) (List.Subperm.refl [])

/-- A message that comes in between the select and the delete is lost. -/
theorem not_everyState_deletedSeen :
    ¬ ∀ (name : Bytes) (message : List MessageRow) (steps : List MailboxStep),
      EveryState (step name) DeletedSeen (init message) steps := by
  intro h
  let row : MessageRow := ⟨utf8 "a", utf8 "b", utf8 "hello", utf8 "12:30:0"⟩
  let s : Mailbox := ⟨[], .idle, [], [row], [], true⟩
  have hrun : run (step (utf8 "b")) (init [])
      [.select true, .storeResult true, .fetchRow, .insert row, .delete true] = some s := by
    rfl
  have hseen : s.DeletedSeen := (h (utf8 "b") [] _).last hrun
  exact absurd hseen.length_le (by decide)

end Mailbox

end ChatRoom
