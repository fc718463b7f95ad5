import ChatRoom.Bank.Server

/-!
# Balances that stay non-negative

A withdrawal looks up the balance and changes it later.  In between another connection may have
taken the money, and the amount may have either sign.  What counts is the balance that the update
itself finds: as long as each update that takes money finds enough, no balance becomes negative.
-/

namespace ChatRoom.Bank

open CString Transactions StepSystem

/-- No committed balance is negative. -/
def Solvent (t : Tables) (s : Server) : Prop :=
  ∀ c ∈ (t.after s.store.committed).custominfo, 0 ≤ c.ye

/-- If the first statement of the block takes money from an account, there is enough on it. -/
def Tables.Covers (t : Tables) (block : Block) : Prop :=
  match block.update with
  | .addYe userid amount => amount < 0 → userid ∈ t.userids → -amount ≤ t.yeOf userid
  | .insertCustom _ _ => True

instance (t : Tables) : (block : Block) → Decidable (t.Covers block)
  | ⟨.addYe userid amount, _⟩ =>
      inferInstanceAs (Decidable (amount < 0 → userid ∈ t.userids → -amount ≤ t.yeOf userid))
  | ⟨.insertCustom _ _, _⟩ => isTrue trivial

/-- An update that takes money finds enough of it. -/
def CoversUpdates (t : Tables) (s : Server) : BankStep → Prop
  | .call iconn none =>
      ∀ ses ∈ s.sessions iconn, ∀ e ∈ ses.executes, (t.after (s.store.seen e.1)).Covers e.2
  | _ => True

instance (t : Tables) (s : Server) : (a : BankStep) → Decidable (CoversUpdates t s a)
  | .call iconn none =>
      inferInstanceAs (Decidable (∀ ses ∈ s.sessions iconn, ∀ e ∈ ses.executes,
        (t.after (s.store.seen e.1)).Covers e.2))
  | .call _ (some _) | .enter _ _ | .leave _ | .mainExit => isTrue trivial

/-! ## The invariant -/

/-- Neither a committed balance nor one that a connection sees is negative. -/
structure NonNegative (t : Tables) (store : Store (Fin 5) Change) : Prop where
  coherent : Coherent t store
  committed : ∀ userid, 0 ≤ (t.after store.committed).yeOf userid
  seen : ∀ i userid, 0 ≤ (t.after (store.seen i)).yeOf userid

theorem nonNegative_start {t : Tables} (h : ∀ c ∈ t.custominfo, 0 ≤ c.ye) :
    NonNegative t .start := by
  have hyeOf : ∀ userid, 0 ≤ t.yeOf userid := by
    intro userid
    by_cases hexists : userid ∈ t.userids
    · obtain ⟨c, hc, rfl⟩ := List.mem_map.mp hexists
      exact (Tables.yeOf_of_mem hc).symm ▸ h c hc
    · exact (Tables.yeOf_eq_zero hexists).ge
  exact ⟨coherent_start t, hyeOf, fun _ => hyeOf⟩

theorem NonNegative.solvent {t : Tables} {s : Server} (h : NonNegative t s.store) : Solvent t s :=
  fun c hc => Tables.yeOf_of_mem hc ▸ h.committed c.userid

section
variable {t : Tables} {store store' : Store (Fin 5) Change}

theorem NonNegative.rollbackAll (h : NonNegative t store) : NonNegative t store.rollbackAll := by
  refine ⟨h.coherent.rollbackAll, h.committed, fun i userid => ?_⟩
  have hseen : store.rollbackAll.seen i = store.committed := List.append_nil _
  exact hseen ▸ h.committed userid

theorem NonNegative.rollback (h : NonNegative t store) (conn : Fin 5) :
    NonNegative t (store.rollback conn) := by
  refine ⟨h.coherent.rollback conn, h.committed, fun j userid => ?_⟩
  by_cases hj : j = conn
  · subst hj
    rw [Store.seen, Store.pending_rollback, List.append_nil]
    exact h.committed userid
  · rw [Store.seen, Store.pending_rollback_of_ne hj]
    exact h.seen j userid

/-- The connection that commits sees the same as before, and of every row another connection sees
what one of the two has seen. -/
theorem NonNegative.commit (h : NonNegative t store) (conn : Fin 5) :
    NonNegative t (store.commit conn) := by
  have hcoherent := h.coherent.commit conn
  refine ⟨hcoherent, h.seen conn, fun j userid => ?_⟩
  by_cases hj : j = conn
  · subst hj
    rw [Store.seen, Store.pending_commit, List.append_nil, Store.committed_commit]
    exact h.seen j userid
  · have hrow := h.coherent.apart.amount_seen_commit Change.locks_of_part_ne_zero hj userid
    rw [Tables.yeOf_after (hcoherent.found j)]
    rcases hrow with hsame | hother
    · rw [hsame, ← Tables.yeOf_after (h.coherent.found j)]
      exact h.seen j userid
    · rw [hother, ← Tables.yeOf_after (h.coherent.found conn)]
      exact h.seen conn userid

/-- A covered change leaves no negative balance. -/
theorem yeOf_apply_nonneg {t : Tables} {request : Request} {block : Block} {c : Change}
    (hc : t.executes request block = some c) (hcovers : t.Covers block)
    (h : ∀ userid, 0 ≤ t.yeOf userid) (userid : CStr) : 0 ≤ (t.apply c).yeOf userid := by
  rw [(Tables.apply_of_matches (Tables.matches_singleton_of_executes hc) userid).1]
  obtain hzero | ⟨amount, hupdate, hexists, hpart⟩ := Tables.part_of_executes hc userid
  · rw [hzero, add_zero]
    exact h userid
  · rw [hpart]
    rcases le_or_gt 0 amount with hpositive | hnegative
    · exact add_nonneg (h userid) hpositive
    · simp only [Tables.Covers, hupdate] at hcovers
      exact neg_le_iff_add_nonneg.mp (hcovers hnegative hexists)

theorem NonNegative.execute {request : Request} {block : Block} {conn : Fin 5} {c : Change}
    (h : NonNegative t store) (hc : (t.after (store.seen conn)).executes request block = some c)
    (hwaits : ¬ c.Waits store conn) (hcovers : (t.after (store.seen conn)).Covers block) :
    NonNegative t (store.execute conn c) := by
  refine ⟨h.coherent.execute hc hwaits, h.committed, fun j userid => ?_⟩
  by_cases hj : j = conn
  · subst hj
    rw [Store.seen, Store.committed_execute, Store.pending_execute, ← List.append_assoc,
      Tables.after_append]
    exact yeOf_apply_nonneg hc hcovers (h.seen j) userid
  · rw [Store.seen, Store.committed_execute, Store.pending_execute_of_ne hj]
    exact h.seen j userid

end

/-! ## All runs -/

theorem nonNegative_bankStep {t : Tables} (s : Server) (a : BankStep) (s' : Server)
    (h : NonNegative t s.store) (hguard : CoversUpdates t s a)
    (hstep : bankStep t s a = some s') : NonNegative t s'.store := by
  obtain hsame | hall | ⟨iconn, fault, request, op, next, r, rfl, hsession, hperform⟩ :=
    step_store hstep
  · exact hsame ▸ h
  · exact hall ▸ h.rollbackAll
  · cases op with
    | select conn query => exact perform_select hperform ▸ h
    | commit conn =>
        obtain ⟨code, -, hsame⟩ | ⟨-, hstore⟩ := perform_commit hperform
        · exact hsame ▸ h
        · exact hstore ▸ h.commit conn
    | rollback conn =>
        obtain ⟨code, -, hsame⟩ | ⟨-, hstore⟩ := perform_rollback hperform
        · exact hsame ▸ h
        · exact hstore ▸ h.rollback conn
    | execute conn block =>
        obtain ⟨code, -, -, hsame⟩ | ⟨c, rfl, -, hc, hwaits, hstore⟩ := perform_execute hperform
        · exact hsame ▸ h
        · exact hstore ▸ h.execute hc hwaits (hguard _ hsession _ rfl)

/-- If no balance is negative at first, and each update that takes money finds enough of it, no
committed balance ever becomes negative. -/
theorem everyState_solvent (t : Tables) (hstart : ∀ c ∈ t.custominfo, 0 ≤ c.ye)
    {steps : List BankStep} (hguard : EveryStep (bankStep t) (CoversUpdates t) .start steps) :
    EveryState (bankStep t) (Solvent t) .start steps :=
  everyState_of_guarded nonNegative_bankStep (fun _ h => h.solvent) (nonNegative_start hstart)
    hguard

section Examples

/-- Two withdrawals look up the balance before one of them takes its money; what the first one
leaves is enough for the second. -/
def withdrawalSteps : List BankStep :=
  [.enter (some 1) (withdrawal 30), .enter (some 0) (withdrawal 60), .call 0 none, .call 1 none,
    .call 0 none, .call 0 none, .call 1 none, .leave 0, .call 1 none, .leave 1,
    .enter (some 1) (deposit 1), .call 1 none, .call 1 none]

theorem everyState_solvent_withdrawals :
    EveryState (bankStep oneCustomer) (Solvent oneCustomer) .start withdrawalSteps ∧
      ∃ s, run (bankStep oneCustomer) .start withdrawalSteps = some s ∧
        (oneCustomer.after s.store.committed).custominfo.map Customer.ye = [11] := by
  have hbalance : (run (bankStep oneCustomer) .start withdrawalSteps).map
      (fun s => (oneCustomer.after s.store.committed).custominfo.map Customer.ye) =
        some [11] := by
    decide +kernel
  exact ⟨everyState_solvent oneCustomer (by decide +kernel) (by decide +kernel),
    Option.map_eq_some_iff.mp hbalance⟩

/-- Two withdrawals of 60 look up the balance of 100 before one of them takes its money.  The second
one is committed with the next deposit on its connection. -/
theorem not_everyState_solvent :
    ¬ ∀ (t : Tables) (steps : List BankStep), (∀ c ∈ t.custominfo, 0 ≤ c.ye) →
      EveryState (bankStep t) (Solvent t) .start steps := by
  intro h
  let steps : List BankStep := [.enter (some 0) (withdrawal 60), .enter (some 1) (withdrawal 60),
    .call 0 none, .call 1 none, .call 0 none, .call 0 none, .call 1 none, .call 1 none, .leave 1,
    .enter (some 1) (deposit 0), .call 1 none, .call 1 none]
  have hoverdrawn : (run (bankStep oneCustomer) .start steps).any
      (fun s => (oneCustomer.after s.store.committed).custominfo.any (·.ye < 0)) = true := by
    decide +kernel
  obtain ⟨s, hs, hany⟩ := (Option.any_eq_true _ _).mp hoverdrawn
  obtain ⟨c, hc, hnegative⟩ := List.any_eq_true.mp hany
  have hsolvent : Solvent oneCustomer s := (h oneCustomer steps (by decide +kernel)).last hs
  exact absurd (hsolvent c hc) (not_le.mpr (of_decide_eq_true hnegative))

end Examples

end ChatRoom.Bank
