import ChatRoom.Client.AddFriend
import ChatRoom.Server.Handlers
import ChatRoom.Support.PairRelation
import ChatRoom.Support.StepSystem
import Mathlib.Logic.Function.Basic
import Mathlib.Order.BooleanAlgebra.Set

/-!
# Friendships while they are written

`insertFriend2Mysql` on a client and `procDelFriendMsg` on the server each write both rows
of a friendship, by two statements without a transaction.  Here any number of such
operations run at once, a step is one statement, and each statement may fail.
-/

namespace ChatRoom

open CString SqlText StepSystem

/-- A row of the table `friends`: `srcName` and `desName`. -/
abbrev FriendRow := Bytes × Bytes

inductive FriendOp where
  | insertFriend
  | deleteFriend
deriving DecidableEq

/-- The next statement of an operation: the look-up of `procDelFriendMsg`, or one of the two
writes.  `res` tells whether the first one succeeded. -/
inductive OpPhase where
  | check
  | first
  | second (res : Bool)
deriving DecidableEq

/-- An operation in progress, with the names of its first statement. -/
structure Progress where
  op : FriendOp
  src : CStr
  des : CStr
  phase : OpPhase

/-- The database and the operations in progress. -/
structure Friendship where
  tables : Tables
  ops : ℕ → Option Progress

/-- No operation is in progress. -/
def Friendship.rest (tables : Tables) : Friendship := ⟨tables, fun _ => none⟩

/-- The database and operation `i` after a step of that operation. -/
def Friendship.next (s : Friendship) (i : ℕ) (tables : Tables) (p : Option Progress) :
    Friendship :=
  ⟨tables, Function.update s.ops i p⟩

def FriendOp.firstPhase : FriendOp → OpPhase
  | insertFriend => .first
  | deleteFriend => .check

/-- A statement of the operation as it comes out of its buffer: 64 bytes in `insertFriend2Mysql`,
128 in `deleteFriendFromMysql`. -/
def FriendOp.text : FriendOp → CStr → CStr → Bytes
  | insertFriend, src, des => snprintf 64 (sql friendsInsert [src.bytes, des.bytes])
  | deleteFriend, src, des => snprintf 128 (sql friendsDelete [src.bytes, des.bytes])

/-- MySQL is given the text, or the statement fails for another reason. -/
def FriendOp.attempt (m : Mysql) (op : FriendOp) (ok : Bool) (t : Tables) (src des : CStr) :
    Option Tables :=
  if ok then m.queryModify t (op.text src des) else none

/-- The look-up of `checkReciverIsFriend`, or its failure. -/
def lookUp (m : Mysql) (ok : Bool) (t : Tables) (src des : CStr) : Option ErrCode :=
  if ok then
    lookupCode (m.querySelect t (snprintf 128 (sql friendsSelect [src.bytes, des.bytes])))
  else none

inductive FriendStep where
  | start (i : ℕ) (op : FriendOp) (src des : CStr)
  | statement (i : ℕ) (ok : Bool)
  /-- `mysql_store_result` returns NULL for the look-up. -/
  | nullResult (i : ℕ)

/-- One statement.  A client does not answer a request of its own user; a look-up that
fails ends the server process, and with it all deletions in progress. -/
def friendStep (m : Mysql) (s : Friendship) : FriendStep → Option Friendship
  | .start i op src des =>
      if s.ops i = none ∧ (op = .insertFriend → src ≠ des) then
        some (s.next i s.tables (some ⟨op, src, des, op.firstPhase⟩))
      else none
  | .statement i ok =>
      match s.ops i with
      | none => none
      | some ⟨op, src, des, .check⟩ =>
          match lookUp m ok s.tables src des with
          | none => some { s with ops := fun j => (s.ops j).filter (·.op = .insertFriend) }
          | some .failed => some (s.next i s.tables none)
          | some .success => some (s.next i s.tables (some ⟨op, src, des, .first⟩))
      | some ⟨op, src, des, .first⟩ =>
          let result := op.attempt m ok s.tables src des
          some (s.next i (result.getD s.tables) (some ⟨op, src, des, .second result.isSome⟩))
      | some ⟨op, src, des, .second _⟩ =>
          some (s.next i ((op.attempt m ok s.tables des src).getD s.tables) none)
  | .nullResult i =>
      match s.ops i with
      | some ⟨op, src, des, .check⟩ =>
          some (s.next i s.tables (some ⟨op, src, des, .first⟩))
      | _ => none

/-- Whenever no operation is in progress, the table is symmetric. -/
def Friendship.SymmetricAtRest (s : Friendship) : Prop :=
  (∀ i, s.ops i = none) → ∀ a b, (a, b) ∈ s.tables.friends ↔ (b, a) ∈ s.tables.friends

/-! ## What the statements do -/

/-- A name that fits its array, without quote and backslash. -/
def IsPlainName (name : CStr) : Prop := Plain name.bytes ∧ name.strlen ≤ maxNameLen

instance (name : CStr) : Decidable (IsPlainName name) := inferInstanceAs (Decidable (_ ∧ _))

/-- The effect of a statement on the rows. -/
def FriendOp.write : FriendOp → List FriendRow → FriendRow → List FriendRow
  | insertFriend, friends, row => friends ++ [row]
  | deleteFriend, friends, row => friends.filter (· ≠ row)

/-- A statement of either operation with plain names succeeds with its effect or fails without
one. -/
def Mysql.RunsOrFails (m : Mysql) : Prop :=
  ∀ (op : FriendOp) (t : Tables) (src des : CStr) (t' : Tables), IsPlainName src → IsPlainName des →
    m.queryModify t (op.text src des) = some t' →
      t'.friends = op.write t.friends (src.bytes, des.bytes)

/-- The rows after a statement that was done or not. -/
def FriendOp.after (op : FriendOp) (done : Bool) (friends : List FriendRow) (row : FriendRow) :
    List FriendRow :=
  if done then op.write friends row else friends

theorem friends_attempt {m : Mysql} (hm : m.RunsOrFails) (op : FriendOp) (ok : Bool) (t : Tables)
    {src des : CStr} (hsrc : IsPlainName src) (hdes : IsPlainName des) :
    ((op.attempt m ok t src des).getD t).friends =
      op.after (op.attempt m ok t src des).isSome t.friends (src.bytes, des.bytes) := by
  cases ok with
  | false => rfl
  | true =>
      rw [FriendOp.attempt, if_pos rfl]
      cases hquery : m.queryModify t (op.text src des) with
      | none => rfl
      | some t' => exact hm op t src des t' hsrc hdes hquery

/-! ## Half done operations -/

/-- The row that an operation has still to write after a first statement that succeeded. -/
def owed (p : Option Progress) (op : FriendOp) : Set FriendRow :=
  {r | ∃ src des : CStr, p = some ⟨op, src, des, .second true⟩ ∧ (des.bytes, src.bytes) = r}

def Friendship.halfDone (s : Friendship) (op : FriendOp) : Set FriendRow :=
  {r | ∃ i, r ∈ owed (s.ops i) op}

/-- The rows owed by the other operations. -/
def Friendship.othersHalfDone (s : Friendship) (i : ℕ) (op : FriendOp) : Set FriendRow :=
  {r | ∃ j, j ≠ i ∧ r ∈ owed (s.ops j) op}

def Friendship.rows (s : Friendship) : Set FriendRow := {r | r ∈ s.tables.friends}

/-- Finishing what is half done would leave a symmetric table. -/
def Friendship.Coherent (s : Friendship) : Prop :=
  PairRelation.Coherent s.rows (s.halfDone .insertFriend) (s.halfDone .deleteFriend)

@[simp] theorem owed_none (op : FriendOp) : owed none op = ∅ := by
  simp [owed]

@[simp] theorem owed_check (op op' : FriendOp) (src des : CStr) :
    owed (some ⟨op', src, des, .check⟩) op = ∅ := by
  simp [owed]

@[simp] theorem owed_first (op op' : FriendOp) (src des : CStr) :
    owed (some ⟨op', src, des, .first⟩) op = ∅ := by
  simp [owed]

@[simp] theorem owed_second (op op' : FriendOp) (src des : CStr) (res : Bool) :
    owed (some ⟨op', src, des, .second res⟩) op =
      if op' = op ∧ res = true then {(des.bytes, src.bytes)} else ∅ := by
  ext r
  by_cases h : op' = op ∧ res = true
  · obtain ⟨rfl, rfl⟩ := h
    simp [owed, eq_comm]
  · simp only [owed, Option.some.injEq, Progress.mk.injEq, OpPhase.second.injEq, if_neg h]
    constructor
    · rintro ⟨_, _, ⟨hop, -, -, hres⟩, -⟩
      exact absurd ⟨hop, hres⟩ h
    · exact fun hr => absurd hr (Set.notMem_empty r)

theorem halfDone_next (s : Friendship) (i : ℕ) (tables : Tables) (p : Option Progress)
    (op : FriendOp) :
    (s.next i tables p).halfDone op = owed p op ∪ s.othersHalfDone i op := by
  ext r
  constructor
  · rintro ⟨j, hj⟩
    by_cases hji : j = i
    · subst hji
      exact .inl (by simpa [Friendship.next] using hj)
    · exact .inr ⟨j, hji, by simpa [Friendship.next, hji] using hj⟩
  · rintro (hr | ⟨j, hji, hj⟩)
    · exact ⟨i, by simpa [Friendship.next] using hr⟩
    · exact ⟨j, by simpa [Friendship.next, hji] using hj⟩

theorem halfDone_eq (s : Friendship) (i : ℕ) (op : FriendOp) :
    s.halfDone op = owed (s.ops i) op ∪ s.othersHalfDone i op := by
  rw [← halfDone_next s i s.tables, Friendship.next, Function.update_eq_self]

@[simp] theorem rows_next (s : Friendship) (i : ℕ) (tables : Tables) (p : Option Progress) :
    (s.next i tables p).rows = {r | r ∈ tables.friends} := rfl

theorem rows_insertFriend (friends : List FriendRow) (row : FriendRow) :
    {r | r ∈ FriendOp.insertFriend.write friends row} = insert row {r | r ∈ friends} := by
  ext r
  simp [FriendOp.write, or_comm]

theorem rows_deleteFriend (friends : List FriendRow) (row : FriendRow) :
    {r | r ∈ FriendOp.deleteFriend.write friends row} = {r | r ∈ friends} \ {row} := by
  ext r
  simp [FriendOp.write]

/-- The statement would find its work done. -/
def FriendOp.Idle (op : FriendOp) (friends : List FriendRow) (row : FriendRow) : Prop :=
  match op with
  | .insertFriend => row ∈ friends
  | .deleteFriend => row ∉ friends

/-- The operation that undoes this one. -/
def FriendOp.other : FriendOp → FriendOp
  | insertFriend => .deleteFriend
  | deleteFriend => .insertFriend

theorem rows_write_of_idle {op : FriendOp} {friends : List FriendRow} {row : FriendRow}
    (h : op.Idle friends row) : {r | r ∈ op.write friends row} = {r | r ∈ friends} := by
  cases op with
  | insertFriend =>
      rw [rows_insertFriend]
      exact Set.insert_eq_of_mem h
  | deleteFriend =>
      rw [rows_deleteFriend]
      exact Set.sdiff_singleton_eq_self h

/-! ## Orderly statements -/

/-- What a step must respect: the names are plain, a first statement does not succeed while an
operation of the other kind is half done on the same two users, the second statement has the
outcome of the first or nothing to do, and a look-up fails only when half done deletions have
nothing left to do. -/
def Orderly (m : Mysql) (s : Friendship) : FriendStep → Prop
  | .start _ _ src des => IsPlainName src ∧ IsPlainName des
  | .statement i ok =>
      match s.ops i with
      | some ⟨_, src, des, .check⟩ =>
          lookUp m ok s.tables src des = none →
            ∀ r ∈ s.halfDone .deleteFriend, r ∉ s.tables.friends
      | some ⟨op, src, des, .first⟩ =>
          (op.attempt m ok s.tables src des).isSome →
            (src.bytes, des.bytes) ∉ s.halfDone op.other ∧
              (des.bytes, src.bytes) ∉ s.halfDone op.other
      | some ⟨op, src, des, .second res⟩ =>
          (op.attempt m ok s.tables des src).isSome = res ∨
            op.Idle s.tables.friends (des.bytes, src.bytes)
      | none => True
  | .nullResult _ => True

/-- The table is coherent, and the names of the operations in progress are plain. -/
structure Friendship.Sound (s : Friendship) : Prop where
  coherent : s.Coherent
  plain : ∀ i p, s.ops i = some p → IsPlainName p.src ∧ IsPlainName p.des

/-- The operation of a step goes on with the same names, or is done. -/
theorem plain_next {s : Friendship} (hs : s.Sound) {i : ℕ} {tables : Tables} {p : Option Progress}
    (hp : ∀ q, p = some q → IsPlainName q.src ∧ IsPlainName q.des) (j : ℕ) (q : Progress)
    (hq : (s.next i tables p).ops j = some q) : IsPlainName q.src ∧ IsPlainName q.des := by
  by_cases hji : j = i
  · subst hji
    exact hp q (by simpa [Friendship.next] using hq)
  · exact hs.plain j q (by simpa [Friendship.next, hji] using hq)

/-- Steps that write nothing and leave nothing half done. -/
theorem coherent_next {s : Friendship} (hs : s.Coherent) {i : ℕ} {p : Option Progress}
    (hold : ∀ op, owed (s.ops i) op = ∅) (hnew : ∀ op, owed p op = ∅) :
    (s.next i s.tables p).Coherent := by
  have hsame : ∀ op, (s.next i s.tables p).halfDone op = s.halfDone op := by
    intro op
    rw [halfDone_next, halfDone_eq s i, hold, hnew]
  rw [Friendship.Coherent, hsame, hsame]
  exact hs

section
variable {s : Friendship} (hs : s.Coherent) {i : ℕ} {op : FriendOp} {src des : CStr}
  {tables : Tables}

include hs in
/-- The first statement is done, or not. -/
theorem coherent_first (hop : s.ops i = some ⟨op, src, des, .first⟩) {done : Bool}
    (htables : tables.friends = op.after done s.tables.friends (src.bytes, des.bytes))
    (horderly : done = true → (src.bytes, des.bytes) ∉ s.halfDone op.other ∧
      (des.bytes, src.bytes) ∉ s.halfDone op.other) :
    (s.next i tables (some ⟨op, src, des, .second done⟩)).Coherent := by
  have hothers : ∀ op', s.halfDone op' = s.othersHalfDone i op' := by
    intro op'
    rw [halfDone_eq s i, hop, owed_first, Set.empty_union]
  rw [Friendship.Coherent, hothers, hothers] at hs
  rw [Friendship.Coherent, rows_next, halfDone_next, halfDone_next, owed_second, owed_second,
    htables]
  cases done with
  | false => simpa [Friendship.rows, FriendOp.after] using hs
  | true =>
      obtain ⟨hrow, hswap⟩ := horderly rfl
      rw [hothers] at hrow hswap
      rw [FriendOp.after, if_pos rfl]
      cases op with
      | insertFriend =>
          have hstored := hs.insertFirst (src.bytes, des.bytes) hrow hswap
          rw [rows_insertFriend]
          simpa [Friendship.rows, Set.singleton_union] using hstored
      | deleteFriend =>
          have hdeleted := hs.removeFirst (src.bytes, des.bytes) hrow hswap
          rw [rows_deleteFriend]
          simpa [Friendship.rows, Set.singleton_union] using hdeleted

/-- The set of rows after the second statement: as if it had succeeded when the first one
did, and as before when not. -/
theorem rows_second {friends : List FriendRow} {row : FriendRow} {res done : Bool}
    (horderly : done = res ∨ op.Idle friends row) :
    {r | r ∈ op.after done friends row} = {r | r ∈ op.after res friends row} := by
  rcases horderly with rfl | hidle
  · rfl
  · have hsame := rows_write_of_idle hidle
    cases done <;> cases res <;> simp [FriendOp.after, hsame]

include hs in
theorem coherent_second {res : Bool} (hop : s.ops i = some ⟨op, src, des, .second res⟩)
    {done : Bool}
    (htables : tables.friends = op.after done s.tables.friends (des.bytes, src.bytes))
    (horderly : done = res ∨ op.Idle s.tables.friends (des.bytes, src.bytes)) :
    (s.next i tables none).Coherent := by
  have hrows : (s.next i tables none).rows =
      {r | r ∈ op.after res s.tables.friends (des.bytes, src.bytes)} := by
    rw [rows_next, htables]
    exact rows_second horderly
  rw [Friendship.Coherent, halfDone_eq s i, halfDone_eq s i, hop, owed_second,
    owed_second] at hs
  rw [Friendship.Coherent, halfDone_next, halfDone_next, owed_none, owed_none,
    Set.empty_union, Set.empty_union, hrows]
  cases res with
  | false => simpa [Friendship.rows, FriendOp.after] using hs
  | true =>
      rw [FriendOp.after, if_pos rfl]
      cases op with
      | insertFriend =>
          rw [rows_insertFriend]
          have hpending : PairRelation.Coherent s.rows
              (insert (des.bytes, src.bytes) (s.othersHalfDone i .insertFriend))
              (s.othersHalfDone i .deleteFriend) := by
            simpa [Set.singleton_union] using hs
          exact hpending.insertSecond
      | deleteFriend =>
          rw [rows_deleteFriend]
          have hpending : PairRelation.Coherent s.rows (s.othersHalfDone i .insertFriend)
              (insert (des.bytes, src.bytes) (s.othersHalfDone i .deleteFriend)) := by
            simpa [Set.singleton_union] using hs
          exact hpending.removeSecond

include hs in
/-- The end of the server forgets the deletions. -/
theorem coherent_exit
    (horderly : ∀ r ∈ s.halfDone .deleteFriend, r ∉ s.tables.friends) :
    Friendship.Coherent { s with ops := fun j => (s.ops j).filter (·.op = .insertFriend) } := by
  have howed : ∀ (p : Option Progress) (op : FriendOp),
      owed (p.filter (·.op = .insertFriend)) op =
        if op = .insertFriend then owed p op else ∅ := by
    intro p op
    rcases p with - | ⟨op', src, des, phase⟩
    · simp
    · cases op' <;> cases op <;> cases phase <;> simp [Option.filter]
  have hinsert : Friendship.halfDone
      { s with ops := fun j => (s.ops j).filter (·.op = .insertFriend) } .insertFriend =
        s.halfDone .insertFriend := by
    simp [Friendship.halfDone, howed]
  have hdelete : Friendship.halfDone
      { s with ops := fun j => (s.ops j).filter (·.op = .insertFriend) } .deleteFriend = ∅ := by
    simp [Friendship.halfDone, howed]
  rw [Friendship.Coherent, hinsert, hdelete]
  rw [Friendship.Coherent, ← Set.union_empty (s.halfDone .deleteFriend)] at hs
  exact hs.forgetRemovals horderly

end

/-- A look-up before a deletion, which goes on to its first statement or is over. -/
theorem sound_check {m : Mysql} {s s' : Friendship} (hs : s.Sound) {i : ℕ} {ok : Bool}
    {op : FriendOp} {src des : CStr} (hop : s.ops i = some ⟨op, src, des, .check⟩)
    (horderly : Orderly m s (.statement i ok)) (h : friendStep m s (.statement i ok) = some s') :
    s'.Sound := by
  have hplain := hs.plain i _ hop
  have hold : ∀ op', owed (s.ops i) op' = ∅ := fun op' => by rw [hop, owed_check]
  simp only [Orderly, hop] at horderly
  simp only [friendStep, hop] at h
  rcases hlook : lookUp m ok s.tables src des with - | - | -
  · rw [hlook] at h
    obtain rfl := Option.some.inj h
    refine ⟨coherent_exit hs.coherent (horderly hlook), fun j q hq => ?_⟩
    exact hs.plain j q (Option.filter_eq_some_iff.mp hq).1
  · rw [hlook] at h
    obtain rfl := Option.some.inj h
    refine ⟨coherent_next hs.coherent hold fun op' => owed_first _ _ _ _, plain_next hs ?_⟩
    rintro _ ⟨rfl⟩
    exact hplain
  · rw [hlook] at h
    obtain rfl := Option.some.inj h
    exact ⟨coherent_next hs.coherent hold fun op' => owed_none _,
      plain_next hs fun q hq => absurd hq (by simp)⟩

/-- An orderly step keeps the table coherent. -/
theorem sound_friendStep {m : Mysql} (hm : m.RunsOrFails) (s : Friendship) (a : FriendStep)
    (s' : Friendship) (hs : s.Sound) (horderly : Orderly m s a)
    (h : friendStep m s a = some s') : s'.Sound := by
  cases a with
  | start i op src des =>
      simp only [friendStep, Option.ite_none_right_eq_some, Option.some.injEq] at h
      obtain ⟨⟨hfree, -⟩, rfl⟩ := h
      refine ⟨coherent_next hs.coherent (fun op' => by rw [hfree, owed_none]) fun op' => ?_,
        plain_next hs ?_⟩
      · cases op <;> simp [FriendOp.firstPhase]
      · rintro _ ⟨rfl⟩
        exact horderly
  | nullResult i =>
      simp only [friendStep] at h
      split at h
      · rename_i op src des hop
        obtain rfl := Option.some.inj h
        refine ⟨coherent_next hs.coherent (fun op' => by rw [hop, owed_check])
          fun op' => owed_first _ _ _ _, plain_next hs ?_⟩
        rintro _ ⟨rfl⟩
        have hplain := hs.plain i _ hop
        exact hplain
      · exact absurd h (by simp)
  | statement i ok =>
      rcases hop : s.ops i with - | ⟨op, src, des, phase⟩
      · simp [friendStep, hop] at h
      · obtain ⟨hsrc, hdes⟩ := hs.plain i _ hop
        cases phase with
        | check => exact sound_check hs hop horderly h
        | first =>
            simp only [Orderly, hop] at horderly
            simp only [friendStep, hop] at h
            obtain rfl := Option.some.inj h
            refine ⟨coherent_first hs.coherent hop (friends_attempt hm op ok s.tables hsrc hdes)
              horderly, plain_next hs ?_⟩
            rintro _ ⟨rfl⟩
            exact ⟨hsrc, hdes⟩
        | second res =>
            simp only [Orderly, hop] at horderly
            simp only [friendStep, hop] at h
            obtain rfl := Option.some.inj h
            exact ⟨coherent_second hs.coherent hop
              (friends_attempt hm op ok s.tables hdes hsrc) horderly,
              plain_next hs fun q hq => absurd hq (by simp)⟩

theorem halfDone_eq_empty {s : Friendship} (hrest : ∀ i, s.ops i = none) (op : FriendOp) :
    s.halfDone op = ∅ := by
  simp [Friendship.halfDone, hrest]

/-- At rest a coherent table is a symmetric one. -/
theorem coherent_iff_symmetric {s : Friendship} (hrest : ∀ i, s.ops i = none) :
    s.Coherent ↔ ∀ a b, (a, b) ∈ s.tables.friends ↔ (b, a) ∈ s.tables.friends := by
  rw [Friendship.Coherent, halfDone_eq_empty hrest, halfDone_eq_empty hrest]
  exact PairRelation.coherent_rest_iff

/-! ## One operation alone -/

/-- The rows after both statements of an operation. -/
def FriendOp.both (op : FriendOp) (done₁ done₂ : Bool) (friends : List FriendRow)
    (row : FriendRow) : List FriendRow :=
  op.after done₂ (op.after done₁ friends row) row.swap

/-- An operation that has something to do leaves a symmetric table symmetric exactly if its
two statements have the same outcome. -/
theorem symmetric_both_iff {op : FriendOp} {friends : List FriendRow} {row : FriendRow}
    (hsymm : ∀ a b, (a, b) ∈ friends ↔ (b, a) ∈ friends) (hrow : row.1 ≠ row.2)
    (hbusy : ¬ op.Idle friends row) (done₁ done₂ : Bool) :
    (∀ a b, (a, b) ∈ op.both done₁ done₂ friends row ↔
        (b, a) ∈ op.both done₁ done₂ friends row) ↔
      done₁ = done₂ := by
  obtain ⟨a, b⟩ := row
  have hne : a ≠ b := hrow
  constructor
  · intro h
    have hpair := h a b
    have hstored := hsymm a b
    cases op with
    | insertFriend =>
        have habsent : (a, b) ∉ friends := hbusy
        cases done₁ <;> cases done₂ <;>
          simp_all [FriendOp.both, FriendOp.after, FriendOp.write]
    | deleteFriend =>
        have hpresent : (a, b) ∈ friends := not_not.mp hbusy
        cases done₁ <;> cases done₂ <;>
          simp_all [FriendOp.both, FriendOp.after, FriendOp.write]
  · rintro rfl
    have hrest : PairRelation.Coherent {r | r ∈ friends} ∅ ∅ :=
      PairRelation.coherent_rest_iff.mpr hsymm
    cases done₁ with
    | false => exact hsymm
    | true =>
        have hboth : PairRelation.Coherent {r | r ∈ op.both true true friends (a, b)} ∅ ∅ := by
          cases op with
          | insertFriend =>
              have hwritten := (hrest.insertFirst (a, b) (Set.notMem_empty _)
                (Set.notMem_empty _)).insertSecond
              rwa [← rows_insertFriend, ← rows_insertFriend] at hwritten
          | deleteFriend =>
              have hwritten := (hrest.removeFirst (a, b) (Set.notMem_empty _)
                (Set.notMem_empty _)).removeSecond
              rwa [← rows_deleteFriend, ← rows_deleteFriend] at hwritten
        exact PairRelation.coherent_rest_iff.mp hboth

/-- The database after both statements of an operation. -/
def FriendOp.finish (m : Mysql) (op : FriendOp) (ok₁ ok₂ : Bool) (t : Tables) (src des : CStr) :
    Tables :=
  let t₁ := (op.attempt m ok₁ t src des).getD t
  (op.attempt m ok₂ t₁ des src).getD t₁

theorem next_next (s : Friendship) (i : ℕ) (tables tables' : Tables) (p p' : Option Progress) :
    (s.next i tables p).next i tables' p' = s.next i tables' p' := by
  simp [Friendship.next]

theorem next_none {s : Friendship} {i : ℕ} (hfree : s.ops i = none) (tables : Tables) :
    s.next i tables none = { s with tables := tables } := by
  simp only [Friendship.next, Friendship.mk.injEq, true_and]
  rw [← hfree, Function.update_eq_self]

theorem ops_next (s : Friendship) (i : ℕ) (tables : Tables) (p : Option Progress) :
    (s.next i tables p).ops i = p := by
  simp [Friendship.next]

/-- Both statements, one after the other. -/
theorem run_statements (m : Mysql) (s : Friendship) (i : ℕ) (op : FriendOp) (src des : CStr)
    (ok₁ ok₂ : Bool) :
    run (friendStep m) (s.next i s.tables (some ⟨op, src, des, .first⟩))
        [.statement i ok₁, .statement i ok₂] =
      some (s.next i (op.finish m ok₁ ok₂ s.tables src des) none) := by
  simp only [run_cons, run_nil, friendStep, ops_next, Option.bind_some, next_next]
  rfl

theorem start_insertFriend {m : Mysql} {s : Friendship} {i : ℕ} (hfree : s.ops i = none)
    {src des : CStr} (hnames : src ≠ des) :
    friendStep m s (.start i .insertFriend src des) =
      some (s.next i s.tables (some ⟨.insertFriend, src, des, .first⟩)) :=
  if_pos ⟨hfree, fun _ => hnames⟩

theorem start_deleteFriend {m : Mysql} {s : Friendship} {i : ℕ} (hfree : s.ops i = none)
    (src des : CStr) :
    friendStep m s (.start i .deleteFriend src des) =
      some (s.next i s.tables (some ⟨.deleteFriend, src, des, .check⟩)) :=
  if_pos ⟨hfree, fun h => absurd h (by decide)⟩

/-- An insertion without steps of other operations in between. -/
theorem run_insertFriend (m : Mysql) {s : Friendship} {i : ℕ} (hfree : s.ops i = none)
    {src des : CStr} (hnames : src ≠ des) (ok₁ ok₂ : Bool) :
    run (friendStep m) s [.start i .insertFriend src des, .statement i ok₁, .statement i ok₂] =
      some { s with tables := FriendOp.insertFriend.finish m ok₁ ok₂ s.tables src des } := by
  rw [run_cons, start_insertFriend hfree hnames, Option.bind_some, run_statements,
    next_none hfree]

/-- A deletion without steps of other operations in between, if the look-up finds the row. -/
theorem run_deleteFriend {m : Mysql} {s : Friendship} {i : ℕ} (hfree : s.ops i = none)
    {src des : CStr} (hlook : lookUp m true s.tables src des = some .success) (ok₁ ok₂ : Bool) :
    run (friendStep m) s [.start i .deleteFriend src des, .statement i true, .statement i ok₁,
        .statement i ok₂] =
      some { s with tables := FriendOp.deleteFriend.finish m ok₁ ok₂ s.tables src des } := by
  have hcheck : friendStep m (s.next i s.tables (some ⟨.deleteFriend, src, des, .check⟩))
      (.statement i true) = some (s.next i s.tables (some ⟨.deleteFriend, src, des, .first⟩)) := by
    have hlook' : lookUp m true
        (s.next i s.tables (some ⟨.deleteFriend, src, des, .check⟩)).tables src des =
          some .success := hlook
    simp only [friendStep, ops_next, hlook', next_next]
    rfl
  rw [run_cons, start_deleteFriend hfree, Option.bind_some, run_cons, hcheck, Option.bind_some,
    run_statements, next_none hfree]

/-- A deletion whose look-up does not find the row. -/
theorem run_deleteFriend_refused {m : Mysql} {s : Friendship} {i : ℕ} (hfree : s.ops i = none)
    {src des : CStr} (hlook : lookUp m true s.tables src des = some .failed) :
    run (friendStep m) s [.start i .deleteFriend src des, .statement i true] = some s := by
  have hcheck : friendStep m (s.next i s.tables (some ⟨.deleteFriend, src, des, .check⟩))
      (.statement i true) = some (s.next i s.tables none) := by
    have hlook' : lookUp m true
        (s.next i s.tables (some ⟨.deleteFriend, src, des, .check⟩)).tables src des =
          some .failed := hlook
    simp only [friendStep, ops_next, hlook', next_next]
    rfl
  rw [run_cons, start_deleteFriend hfree, Option.bind_some, run_cons, hcheck,
    Option.bind_some, next_none hfree]
  rfl

/-! ## Any number of operations -/

/-- In a run of orderly statements the table is symmetric whenever nothing is in
progress. -/
theorem symmetricAtRest_of_orderly {m : Mysql} (hm : m.RunsOrFails) {tables : Tables}
    (hsymm : ∀ a b, (a, b) ∈ tables.friends ↔ (b, a) ∈ tables.friends)
    {steps : List FriendStep}
    (horderly : EveryStep (friendStep m) (Orderly m) (Friendship.rest tables) steps) :
    EveryState (friendStep m) Friendship.SymmetricAtRest (Friendship.rest tables) steps := by
  have hstart : (Friendship.rest tables).Sound :=
    ⟨(coherent_iff_symmetric fun _ => rfl).mpr hsymm,
      fun i p hp => absurd hp (by simp [Friendship.rest])⟩
  exact everyState_of_guarded (sound_friendStep hm)
    (fun s hs hrest => (coherent_iff_symmetric hrest).mp hs.coherent) hstart horderly

/-- The interpreter runs the statements of both operations. -/
theorem referenceClient_runsOrFails : Mysql.referenceClient.RunsOrFails := by
  intro op t src des t' hsrc hdes h
  cases op with
  | insertFriend =>
      by_cases hfits : src.strlen + des.strlen ≤ 13
      · have hlen : (sql friendsInsert [src.bytes, des.bytes]).length < 64 := by
          rw [length_friendsInsert]
          simp only [CStr.strlen] at hfits
          omega
        have hparse := friendsInsertTemplate.parse_render [src.bytes, des.bytes] rfl rfl
          (by simp [hsrc.1, hdes.1])
        have hclosed := friendsInsertTemplate.unfinished_of_parse rfl hparse
        rw [FriendOp.text, snprintf_eq_self hlen, sql_friendsInsert] at h
        simp only [Mysql.referenceClient, hclosed, hparse, Bool.false_eq_true, if_false,
          Option.some.injEq] at h
        rw [← h]
        rfl
      · have hcut := queryModify_friendsInsert_cut Mysql.referenceClient_documented (t := t)
          hsrc.1 hdes.1 (by omega)
        rw [FriendOp.text, hcut] at h
        exact absurd h (by simp)
  | deleteFriend =>
      have hlen : (sql friendsDelete [src.bytes, des.bytes]).length < 128 := by
        have hsrcLen := hsrc.2
        have hdesLen := hdes.2
        simp only [CStr.strlen, maxNameLen] at hsrcLen hdesLen
        rw [length_friendsDelete]
        omega
      rw [FriendOp.text, snprintf_eq_self hlen,
        Mysql.referenceClient_documented.friendsDelete t _ _ hsrc.1 hdes.1] at h
      rw [← Option.some.inj h]
      rfl

/-- One friendship is stored, with both statements. -/
theorem symmetricAtRest_insert :
    EveryState (friendStep Mysql.referenceClient) Friendship.SymmetricAtRest
      (Friendship.rest ⟨[], [], []⟩)
      [.start 0 .insertFriend (lit "a") (lit "b"), .statement 0 true, .statement 0 true] := by
  let m := Mysql.referenceClient
  let s := Friendship.rest ⟨[], [], []⟩
  let stored : Tables := ⟨[], [(utf8 "a", utf8 "b")], []⟩
  let both : Tables := ⟨[], [(utf8 "a", utf8 "b"), (utf8 "b", utf8 "a")], []⟩
  have hab : FriendOp.insertFriend.attempt m true s.tables (lit "a") (lit "b") = some stored := rfl
  have hba : FriendOp.insertFriend.attempt m true stored (lit "b") (lit "a") = some both := rfl
  have hstart : friendStep m s (.start 0 .insertFriend (lit "a") (lit "b")) =
      some (s.next 0 s.tables (some ⟨.insertFriend, lit "a", lit "b", .first⟩)) :=
    start_insertFriend rfl (by decide)
  have hfirst : friendStep m
        (s.next 0 s.tables (some ⟨.insertFriend, lit "a", lit "b", .first⟩)) (.statement 0 true) =
      some (s.next 0 stored (some ⟨.insertFriend, lit "a", lit "b", .second true⟩)) := by
    simp only [friendStep, ops_next, next_next]
    rfl
  have hnames : IsPlainName (lit "a") ∧ IsPlainName (lit "b") := by decide
  have horderly₁ : Orderly m
      (s.next 0 s.tables (some ⟨.insertFriend, lit "a", lit "b", .first⟩)) (.statement 0 true) := by
    simp [Orderly, ops_next, halfDone_next, Friendship.othersHalfDone, s, Friendship.rest]
  have horderly₂ : Orderly m
      (s.next 0 stored (some ⟨.insertFriend, lit "a", lit "b", .second true⟩))
      (.statement 0 true) := by
    simp only [Orderly, ops_next]
    exact .inl (congrArg Option.isSome hba)
  have horderly : EveryStep (friendStep m) (Orderly m) s
      [.start 0 .insertFriend (lit "a") (lit "b"), .statement 0 true, .statement 0 true] := by
    refine (everyStep_cons hstart).mpr ⟨hnames, (everyStep_cons hfirst).mpr ⟨horderly₁, ?_⟩⟩
    exact fun _ _ => ⟨horderly₂, trivial⟩
  have hsymm : ∀ a b : Bytes, (a, b) ∈ ([] : List FriendRow) ↔ (b, a) ∈ ([] : List FriendRow) :=
    fun a b => by simp
  exact symmetricAtRest_of_orderly referenceClient_runsOrFails hsymm horderly

/-- The second insert of an accepted request fails. -/
theorem not_symmetricAtRest :
    ¬ ∀ (m : Mysql) (tables : Tables) (steps : List FriendStep), m.RunsOrFails →
      (∀ a b, (a, b) ∈ tables.friends ↔ (b, a) ∈ tables.friends) →
        EveryState (friendStep m) Friendship.SymmetricAtRest (Friendship.rest tables) steps := by
  intro h
  have hnames : lit "a" ≠ lit "b" := by decide
  have hrun := run_insertFriend Mysql.referenceClient (s := Friendship.rest ⟨[], [], []⟩) (i := 0)
    rfl hnames true false
  have hsymm := (h Mysql.referenceClient ⟨[], [], []⟩ _ referenceClient_runsOrFails
    (fun a b => by simp)).last hrun (fun _ => rfl) (utf8 "a") (utf8 "b")
  have hstored : ((FriendOp.insertFriend.finish Mysql.referenceClient true false ⟨[], [], []⟩
      (lit "a") (lit "b")).friends) = [(utf8 "a", utf8 "b")] := rfl
  have hpair : (utf8 "b", utf8 "a") ∈ [(utf8 "a", utf8 "b")] :=
    hstored ▸ hsymm.mp (hstored ▸ List.mem_singleton_self _)
  exact absurd hpair (by decide)

/-! ## The functions of the source -/

/-- `insertFriend2Mysql` is an insertion of the steps above. -/
theorem insertFriend2Mysql_steps {m : Mysql} {s : Friendship} {i : ℕ} (hfree : s.ops i = none)
    {t' : Tables} {a b : CStr} (hne : a ≠ b) (h : insertFriend2Mysql m s.tables a b = some t') :
    run (friendStep m) s
        [.start i .insertFriend a b, .statement i true, .statement i true] =
      some { s with tables := t' } := by
  simp only [insertFriend2Mysql, Option.ite_none_right_eq_some, Option.some.injEq] at h
  obtain ⟨-, rfl⟩ := h
  exact run_insertFriend m hfree hne true true

/-- `deleteFriendFromMysql` makes both writes of a deletion. -/
theorem tables_deleteFriendFromMysql {m : Mysql} {t t' : Tables} {pstData : MsgData} {des : CStr}
    (h : deleteFriendFromMysql m t pstData des = some t') :
    t' = FriendOp.deleteFriend.finish m true true t pstData.srcNameStr des := by
  simp only [deleteFriendFromMysql, Option.ite_none_right_eq_some, Option.some.injEq] at h
  exact h.2.symm

/-- `checkReciverIsFriend` is the look-up of a deletion, if the server can connect. -/
theorem checkReciverIsFriend_eq {m : Mysql} {t : Tables} {pstData : MsgData} {des : CStr}
    {code : ErrCode} (h : checkReciverIsFriend m t pstData des = some code) :
    lookUp m true t pstData.srcNameStr des = some code := by
  rw [checkReciverIsFriend, Option.ite_none_right_eq_some] at h
  exact h.2

/-- `procDelFriendMsg` returns after its look-up or after both statements. -/
theorem procDelFriendMsg_cases {s : ServerState} {pstData : MsgData} {des : CStr} {srcFd : ℕ}
    (hruns : (procDelFriendMsg s pstData des srcFd).exited = false) :
    (checkReciverIsFriend s.mysql s.tables pstData des = some .failed ∧
      (procDelFriendMsg s pstData des srcFd).tables = s.tables) ∨
    (checkReciverIsFriend s.mysql s.tables pstData des = some .success ∧
      deleteFriendFromMysql s.mysql s.tables pstData des =
        some (procDelFriendMsg s pstData des srcFd).tables) := by
  rw [procDelFriendMsg] at hruns ⊢
  rcases hcheck : checkReciverIsFriend s.mysql s.tables pstData des with - | code
  · simp [hcheck, exiting] at hruns
  · cases code with
    | failed => exact .inl ⟨rfl, rfl⟩
    | success =>
        rcases hdelete : deleteFriendFromMysql s.mysql s.tables pstData des with - | t
        · simp [hcheck, hdelete, exiting] at hruns
        · exact .inr ⟨rfl, rfl⟩

/-- `procDelFriendMsg` is a deletion of the steps above, when it does not end the server. -/
theorem procDelFriendMsg_steps {server : ServerState} {s : Friendship} {i : ℕ}
    (hfree : s.ops i = none) (htables : s.tables = server.tables) {pstData : MsgData} {des : CStr}
    {srcFd : ℕ} (hruns : (procDelFriendMsg server pstData des srcFd).exited = false) :
    ∃ n, run (friendStep server.mysql) s
        (.start i .deleteFriend pstData.srcNameStr des :: List.replicate n (.statement i true)) =
      some { s with tables := (procDelFriendMsg server pstData des srcFd).tables } := by
  rcases procDelFriendMsg_cases hruns with ⟨hcheck, hsame⟩ | ⟨hcheck, hdelete⟩
  · refine ⟨1, ?_⟩
    rw [hsame, ← htables]
    exact run_deleteFriend_refused hfree (htables ▸ checkReciverIsFriend_eq hcheck)
  · refine ⟨3, ?_⟩
    rw [tables_deleteFriendFromMysql hdelete, ← htables]
    exact run_deleteFriend hfree (htables ▸ checkReciverIsFriend_eq hcheck) true true

end ChatRoom
