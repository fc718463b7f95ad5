import ChatRoom.Support.CString
import ChatRoom.Support.Transactions
import Mathlib.Algebra.BigOperators.Group.List.Basic
import Mathlib.Algebra.Order.Ring.Rat
import Mathlib.Data.Rat.Defs
import Mathlib.Tactic.Abel

/-!
# The tables of the bank

The server of `freec++/bank` keeps accounts in T_CUSTOMINFO and a row for every operation in
T_JYLOG.  Both are changed by blocks of one update and one insert into the log.  Amounts are exact
numbers.
-/

namespace ChatRoom.Bank

open CString Transactions

/-! ## Requests -/

/-- `struct st_bank`, as far as a request fills it in. -/
structure StBank where
  msgid : ℤ
  oper_id : CStr
  password : CStr
  userid : CStr
  je : ℚ
  userid1 : CStr
deriving DecidableEq

/-- A call of `procmessage`; the number tells calls with the same data apart. -/
structure Request where
  id : ℕ
  stbank : StBank
deriving DecidableEq

/-! ## Rows -/

structure Operator where
  oper_id : CStr
  password : CStr
  rsts : ℤ
deriving DecidableEq

structure Customer where
  userid : CStr
  password : CStr
  ye : ℚ
  rsts : ℤ
deriving DecidableEq

structure JyLog where
  oper_id : CStr
  userid : CStr
  opertype : ℤ
  je : ℚ
deriving DecidableEq

/-- T_OPERATOR, T_CUSTOMINFO with its key, and T_JYLOG in the order of insertion. -/
structure Tables where
  operator : List Operator
  custominfo : List Customer
  keyed : (custominfo.map Customer.userid).Nodup
  jylog : List JyLog

namespace Tables

def empty : Tables := ⟨[], [], List.nodup_nil, []⟩

/-- The accounts. -/
def userids (t : Tables) : List CStr := t.custominfo.map Customer.userid

/-- The balance of an account; 0 where there is no account. -/
def yeOf (t : Tables) (userid : CStr) : ℚ :=
  ((t.custominfo.find? (·.userid = userid)).map Customer.ye).getD 0

/-- The sum of `ye` over all accounts. -/
def total (t : Tables) : ℚ := (t.custominfo.map Customer.ye).sum

end Tables

/-- A search finds the only entry there is to find. -/
theorem find?_eq_some_iff_of_unique {α : Type} {p : α → Bool} {entries : List α} {a : α}
    (h : ∀ x ∈ entries, ∀ y ∈ entries, p x = true → p y = true → x = y) :
    entries.find? p = some a ↔ a ∈ entries ∧ p a = true := by
  constructor
  · exact fun hfound => ⟨List.mem_of_find?_eq_some hfound, List.find?_some hfound⟩
  · rintro ⟨ha, hp⟩
    obtain ⟨b, hb⟩ := Option.isSome_iff_exists.mp (List.find?_isSome.mpr ⟨a, ha, hp⟩)
    rw [hb, h a ha b (List.mem_of_find?_eq_some hb) hp (List.find?_some hb)]

/-! ## Changes -/

/-- The first statement of a block. -/
inductive Update where
  | insertCustom (userid password : CStr)
  | addYe (userid : CStr) (amount : ℚ)
deriving DecidableEq

def Update.userid : Update → CStr
  | insertCustom userid _ => userid
  | addYe userid _ => userid

/-- `BEGIN` update; insert into T_JYLOG; `END`. -/
structure Block where
  update : Update
  log : JyLog
deriving DecidableEq

/-- A block that a request has executed, and whether its update has found a row. -/
structure Change where
  block : Block
  matched : Bool
  request : Request
deriving DecidableEq

/-- The row that is locked by the change. -/
def Change.locks (c : Change) : Option CStr :=
  if c.matched then some c.block.update.userid else none

/-- What the change adds to the balance of an account. -/
def Change.part (userid : CStr) (c : Change) : ℚ :=
  match c.matched, c.block.update with
  | true, .addYe target amount => if target = userid then amount else 0
  | _, _ => 0

/-- What the change adds to the sum of all balances. -/
def Change.added (c : Change) : ℚ :=
  match c.matched, c.block.update with
  | true, .addYe _ amount => amount
  | _, _ => 0

theorem Change.locks_of_part_ne_zero (userid : CStr) (c : Change) (h : c.part userid ≠ 0) :
    c.locks = some userid := by
  obtain ⟨⟨update, log⟩, matched, request⟩ := c
  cases matched with
  | false => exact absurd rfl h
  | true =>
      cases update with
      | insertCustom _ _ => exact absurd rfl h
      | addYe target amount =>
          by_cases htarget : target = userid
          · simp [Change.locks, Update.userid, htarget]
          · exact absurd (if_neg htarget) h

theorem Change.part_of_ne {userid : CStr} {c : Change} (h : c.block.update.userid ≠ userid) :
    c.part userid = 0 := by
  by_contra hne
  have hlocks := c.locks_of_part_ne_zero userid hne
  rw [Change.locks, Option.ite_none_right_eq_some] at hlocks
  exact h (Option.some.inj hlocks.2)

namespace Tables

/-- A new account starts with the balance 0 and the state 1. -/
def insertCustom (t : Tables) (userid password : CStr) : Tables :=
  if h : userid ∈ t.userids then t
  else
    { t with
      custominfo := t.custominfo ++ [⟨userid, password, 0, 1⟩]
      keyed := by
        rw [List.map_append]
        refine List.nodup_append.mpr ⟨t.keyed, List.nodup_singleton _, ?_⟩
        rintro a ha b hb rfl
        exact h ((List.mem_singleton.mp hb : a = userid) ▸ ha) }

def addYe (t : Tables) (userid : CStr) (amount : ℚ) : Tables :=
  let changed (c : Customer) : Customer :=
    if c.userid = userid then { c with ye := c.ye + amount } else c
  { t with
    custominfo := t.custominfo.map changed
    keyed := by
      have hsame : Customer.userid ∘ changed = Customer.userid := by
        funext c
        by_cases h : c.userid = userid <;> simp [changed, h]
      rw [List.map_map, hsame]
      exact t.keyed }

def update (t : Tables) : Update → Tables
  | .insertCustom userid password => t.insertCustom userid password
  | .addYe userid amount => t.addYe userid amount

def apply (t : Tables) (c : Change) : Tables :=
  let t' := if c.matched then t.update c.block.update else t
  { t' with jylog := t'.jylog ++ [c.block.log] }

/-- The tables after the changes. -/
def after (t : Tables) (changes : List Change) : Tables := changes.foldl apply t

/-- What executing a block comes to on the tables that a connection sees.  An insert fails when
the account exists; an update that matches no row succeeds. -/
def executes (t : Tables) (request : Request) (block : Block) : Option Change :=
  match block.update with
  | .insertCustom userid _ => if userid ∈ t.userids then none else some ⟨block, true, request⟩
  | .addYe userid _ => some ⟨block, userid ∈ t.userids, request⟩

@[simp] theorem after_nil (t : Tables) : t.after [] = t := rfl

@[simp] theorem after_cons (t : Tables) (c : Change) (changes : List Change) :
    t.after (c :: changes) = (t.apply c).after changes := rfl

theorem after_append (t : Tables) (a b : List Change) : t.after (a ++ b) = (t.after a).after b :=
  List.foldl_append

theorem executes_block {t : Tables} {request : Request} {block : Block} {c : Change}
    (h : t.executes request block = some c) : c.block = block ∧ c.request = request := by
  rcases hupdate : block.update with ⟨userid, password⟩ | ⟨userid, amount⟩
  · simp only [executes, hupdate, Option.ite_none_left_eq_some, Option.some.injEq] at h
    exact h.2 ▸ ⟨rfl, rfl⟩
  · simp only [executes, hupdate, Option.some.injEq] at h
    exact h ▸ ⟨rfl, rfl⟩

/-! ## What a change does -/

theorem insertCustom_of_mem {t : Tables} {userid : CStr} (h : userid ∈ t.userids)
    (password : CStr) : t.insertCustom userid password = t :=
  dif_pos h

theorem custominfo_insertCustom {t : Tables} {userid : CStr} (h : userid ∉ t.userids)
    (password : CStr) :
    (t.insertCustom userid password).custominfo =
      t.custominfo ++ [⟨userid, password, 0, 1⟩] := by
  rw [insertCustom, dif_neg h]

theorem mem_userids_insertCustom {t : Tables} {userid password target : CStr} :
    target ∈ (t.insertCustom userid password).userids ↔ target ∈ t.userids ∨ target = userid := by
  by_cases h : userid ∈ t.userids
  · rw [insertCustom_of_mem h]
    exact ⟨.inl, fun hor => hor.elim id fun heq => heq ▸ h⟩
  · simp only [userids, custominfo_insertCustom h, List.map_append, List.map_cons, List.map_nil,
      List.mem_append, List.mem_singleton]

theorem userids_addYe (t : Tables) (userid : CStr) (amount : ℚ) :
    (t.addYe userid amount).userids = t.userids := by
  simp only [addYe, userids, List.map_map]
  congr 1
  funext c
  by_cases h : c.userid = userid <;> simp [h]

theorem jylog_update (t : Tables) (u : Update) : (t.update u).jylog = t.jylog := by
  cases u with
  | insertCustom userid password =>
      simp only [update, insertCustom]
      split <;> rfl
  | addYe userid amount => rfl

@[simp] theorem jylog_apply (t : Tables) (c : Change) :
    (t.apply c).jylog = t.jylog ++ [c.block.log] := by
  cases hmatched : c.matched <;> simp [apply, hmatched, jylog_update]

/-- Accounts are never removed. -/
theorem userids_subset_apply (t : Tables) (c : Change) : t.userids ⊆ (t.apply c).userids := by
  obtain ⟨⟨update, log⟩, matched, request⟩ := c
  cases matched with
  | false => exact List.Subset.refl _
  | true =>
      cases update with
      | insertCustom userid password =>
          exact fun target htarget => mem_userids_insertCustom.mpr (.inl htarget)
      | addYe userid amount =>
          change t.userids ⊆ (t.addYe userid amount).userids
          rw [userids_addYe]
          exact List.Subset.refl _

/-- Only an opening adds an account. -/
theorem userids_apply_addYe {t : Tables} {c : Change} {userid : CStr} {amount : ℚ}
    (h : c.block.update = .addYe userid amount) : (t.apply c).userids = t.userids := by
  cases hmatched : c.matched with
  | false => simp only [apply, hmatched, Bool.false_eq_true, if_false, userids]
  | true =>
      simp only [apply, hmatched, if_true, h, update]
      exact userids_addYe t userid amount

theorem mem_userids_apply_insertCustom {t : Tables} {c : Change} {userid password target : CStr}
    (h : c.block.update = .insertCustom userid password) (hmatched : c.matched = true) :
    target ∈ (t.apply c).userids ↔ target ∈ t.userids ∨ target = userid := by
  simp only [apply, hmatched, if_true, h, update]
  exact mem_userids_insertCustom

theorem yeOf_eq_zero {t : Tables} {userid : CStr} (h : userid ∉ t.userids) : t.yeOf userid = 0 := by
  have hnone : t.custominfo.find? (·.userid = userid) = none := by
    rw [List.find?_eq_none]
    intro c hc heq
    exact h (List.mem_map.mpr ⟨c, hc, of_decide_eq_true heq⟩)
  rw [yeOf, hnone]
  rfl

/-- The balance of an account is the one in its row. -/
theorem yeOf_of_mem {t : Tables} {c : Customer} (hc : c ∈ t.custominfo) :
    t.yeOf c.userid = c.ye := by
  have hfound : t.custominfo.find? (·.userid = c.userid) = some c := by
    have hkeyed := t.keyed
    generalize t.custominfo = rows at hc hkeyed
    induction rows with
    | nil => exact absurd hc List.not_mem_nil
    | cons d rows ih =>
        obtain ⟨hd, hrest⟩ := List.nodup_cons.mp hkeyed
        rcases List.mem_cons.mp hc with rfl | hc
        · simp
        · have hne : d.userid ≠ c.userid := fun heq => hd (heq ▸ List.mem_map_of_mem hc)
          rw [List.find?_cons_of_neg (by simpa using hne)]
          exact ih hc hrest
  rw [yeOf, hfound]
  rfl

theorem yeOf_insertCustom (t : Tables) (userid password target : CStr) :
    (t.insertCustom userid password).yeOf target = t.yeOf target := by
  by_cases h : userid ∈ t.userids
  · rw [insertCustom_of_mem h]
  · rw [yeOf, yeOf, custominfo_insertCustom h, List.find?_append]
    generalize List.find? _ t.custominfo = found
    rcases found with - | c
    · by_cases htarget : userid = target <;> simp [htarget]
    · rfl

theorem yeOf_addYe (t : Tables) (userid target : CStr) (amount : ℚ) :
    (t.addYe userid amount).yeOf target =
      t.yeOf target + if userid = target ∧ userid ∈ t.userids then amount else 0 := by
  by_cases hexists : target ∈ t.userids
  · obtain ⟨c, hc, rfl⟩ := List.mem_map.mp hexists
    by_cases h : c.userid = userid
    · have hrow :
        ({ c with ye := c.ye + amount } : Customer) ∈ (t.addYe userid amount).custominfo :=
        List.mem_map.mpr ⟨c, hc, if_pos h⟩
      rw [yeOf_of_mem hc, if_pos ⟨h.symm, h ▸ hexists⟩]
      exact yeOf_of_mem hrow
    · have hrow : c ∈ (t.addYe userid amount).custominfo := List.mem_map.mpr ⟨c, hc, if_neg h⟩
      rw [yeOf_of_mem hc, if_neg fun hboth => h hboth.1.symm, add_zero]
      exact yeOf_of_mem hrow
  · have hstill : target ∉ (t.addYe userid amount).userids := by rwa [userids_addYe]
    have hother : ¬ (userid = target ∧ userid ∈ t.userids) :=
        fun hboth => hexists (hboth.1 ▸ hboth.2)
    rw [yeOf_eq_zero hexists, yeOf_eq_zero hstill, if_neg hother, add_zero]

theorem total_insertCustom (t : Tables) (userid password : CStr) :
    (t.insertCustom userid password).total = t.total := by
  by_cases h : userid ∈ t.userids
  · rw [insertCustom_of_mem h]
  · rw [total, custominfo_insertCustom h]
    simp [total]

theorem total_addYe {t : Tables} {userid : CStr} (h : userid ∈ t.userids) (amount : ℚ) :
    (t.addYe userid amount).total = t.total + amount := by
  have hkeyed := t.keyed
  simp only [total, addYe, userids, List.map_map] at h ⊢
  generalize t.custominfo = rows at h hkeyed
  induction rows with
  | nil => exact absurd h List.not_mem_nil
  | cons c rows ih =>
      obtain ⟨hc, hrest⟩ := List.nodup_cons.mp hkeyed
      simp only [List.map_cons, List.sum_cons, Function.comp_apply]
      by_cases heq : c.userid = userid
      · have hothers : rows.map (Customer.ye ∘ fun d => if d.userid = userid then
            { d with ye := d.ye + amount } else d) = rows.map Customer.ye := by
          refine List.map_congr_left fun d hd => ?_
          have hne : d.userid ≠ userid := fun hd' =>
            hc (heq.trans hd'.symm ▸ List.mem_map_of_mem hd)
          simp [hne]
        rw [hothers, if_pos heq]
        exact add_right_comm c.ye amount _
      · have hmem : userid ∈ rows.map Customer.userid :=
          (List.mem_cons.mp h).resolve_left fun h' => heq h'.symm
        rw [ih hmem hrest, if_neg heq, add_assoc]

/-! ## Changes that find their rows -/

/-- Every update that counts as matched finds its account when the changes are made in order. -/
def Matches : Tables → List Change → Prop
  | _, [] => True
  | t, c :: changes =>
      (∀ userid amount, c.matched = true → c.block.update = .addYe userid amount →
        userid ∈ t.userids) ∧ Matches (t.apply c) changes

theorem matches_append {t : Tables} {a b : List Change} :
    t.Matches (a ++ b) ↔ t.Matches a ∧ (t.after a).Matches b := by
  induction a generalizing t with
  | nil => simp [Matches]
  | cons c a ih => simp [Matches, ih, and_assoc]

/-- Matching needs accounts only, and more of them do no harm. -/
theorem Matches.mono {t t' : Tables} {changes : List Change} (h : t.Matches changes)
    (hsub : t.userids ⊆ t'.userids) : t'.Matches changes := by
  induction changes generalizing t t' with
  | nil => trivial
  | cons c changes ih =>
      refine ⟨fun userid amount hm hu => hsub (h.1 userid amount hm hu), ih h.2 ?_⟩
      obtain ⟨⟨update, log⟩, matched, request⟩ := c
      cases matched with
      | false => exact hsub
      | true =>
          cases update with
          | insertCustom userid password =>
              intro target htarget
              have hor := mem_userids_insertCustom.mp htarget
              exact mem_userids_insertCustom.mpr (hor.imp_left fun hold => hsub hold)
          | addYe userid amount =>
              change (t.addYe userid amount).userids ⊆ (t'.addYe userid amount).userids
              rw [userids_addYe, userids_addYe]
              exact hsub

theorem userids_subset_after (t : Tables) (changes : List Change) :
    t.userids ⊆ (t.after changes).userids := by
  induction changes generalizing t with
  | nil => exact List.Subset.refl _
  | cons c changes ih => exact List.Subset.trans (userids_subset_apply t c) (ih _)

/-- A block that a connection has just executed matches what the connection sees. -/
theorem matches_singleton_of_executes {t : Tables} {request : Request} {block : Block} {c : Change}
    (h : t.executes request block = some c) : t.Matches [c] := by
  refine ⟨fun userid amount hmatched hupdate => ?_, trivial⟩
  rw [(executes_block h).1] at hupdate
  simp only [executes, hupdate, Option.some.injEq] at h
  rw [← h] at hmatched
  exact of_decide_eq_true hmatched

/-- A block adds to the balance of an existing account only, and only to the one that it names. -/
theorem part_of_executes {t : Tables} {request : Request} {block : Block} {c : Change}
    (h : t.executes request block = some c) (userid : CStr) :
    c.part userid = 0 ∨
      ∃ amount, block.update = .addYe userid amount ∧ userid ∈ t.userids ∧
        c.part userid = amount := by
  rcases block with ⟨⟨target, password⟩ | ⟨target, amount⟩, log⟩
  · simp only [executes, Option.ite_none_left_eq_some, Option.some.injEq] at h
    exact .inl (h.2 ▸ rfl)
  · simp only [executes, Option.some.injEq] at h
    subst h
    by_cases hexists : target ∈ t.userids
    · by_cases htarget : target = userid
      · subst htarget
        exact .inr ⟨amount, rfl, hexists, by simp [Change.part, hexists]⟩
      · exact .inl (by simp [Change.part, hexists, htarget])
    · exact .inl (by simp [Change.part, hexists])

theorem part_self_of_executes {t : Tables} {request : Request} {block : Block} {c : Change}
    {userid : CStr} {amount : ℚ} (h : t.executes request block = some c)
    (hupdate : block.update = .addYe userid amount) (hexists : userid ∈ t.userids) :
    c.part userid = amount := by
  simp only [executes, hupdate, Option.some.injEq] at h
  subst h
  simp [Change.part, hupdate, hexists]

/-- One change, on the balance of an account and on their sum. -/
theorem apply_of_matches {t : Tables} {c : Change} (h : t.Matches [c]) (userid : CStr) :
    (t.apply c).yeOf userid = t.yeOf userid + c.part userid ∧
      (t.apply c).total = t.total + c.added := by
  obtain ⟨⟨update, log⟩, matched, request⟩ := c
  cases matched with
  | false => exact ⟨(add_zero _).symm, (add_zero _).symm⟩
  | true =>
      cases update with
      | insertCustom target password =>
          exact ⟨(yeOf_insertCustom t target password userid).trans (add_zero _).symm,
            (total_insertCustom t target password).trans (add_zero _).symm⟩
      | addYe target amount =>
          have hexists := h.1 target amount rfl rfl
          have hbalance := yeOf_addYe t target userid amount
          simp only [hexists, and_true] at hbalance
          exact ⟨hbalance, total_addYe hexists amount⟩

/-- The balance of an account is the old one and what the changes have added. -/
theorem yeOf_after {t : Tables} {changes : List Change} (h : t.Matches changes) (userid : CStr) :
    (t.after changes).yeOf userid = t.yeOf userid + Store.amount Change.part userid changes := by
  induction changes generalizing t with
  | nil => simp
  | cons c changes ih =>
      rw [after_cons, ih h.2, (apply_of_matches ⟨h.1, trivial⟩ userid).1, add_assoc]
      rfl

/-- So is the sum of all balances. -/
theorem total_after {t : Tables} {changes : List Change} (h : t.Matches changes) :
    (t.after changes).total = t.total + (changes.map Change.added).sum := by
  induction changes generalizing t with
  | nil => simp
  | cons c changes ih =>
      rw [after_cons, ih h.2, (apply_of_matches ⟨h.1, trivial⟩ c.block.update.userid).2, add_assoc,
        List.map_cons, List.sum_cons]

end Tables

end ChatRoom.Bank
