import ChatRoom.Bank.Progress
import ChatRoom.Support.StepSystem

/-!
# The server of the bank

Any number of client threads call `procmessage`; at most five of them have a connection of the pool
at a time.  A step is one call of a program on the database, or the entry to `procmessage` or the
end of it, so that the statements of different requests come in any order.
-/

namespace ChatRoom.Bank

open CString Transactions Program StepSystem

/-- A call of `procmessage` that holds a mutex, and what it has still to do. -/
structure Session where
  request : Request
  rest : BankProg (Option Reply)

/-- The block that the next call executes, and its connection. -/
def Session.executes : Session → Option (Fin 5 × Block)
  | ⟨_, .call (.execute conn block) _⟩ => some (conn, block)
  | _ => none

/-- The connection that the next call commits, if it is a commit. -/
def Session.commits : Session → Option (Fin 5)
  | ⟨_, .call (.commit conn) _⟩ => some conn
  | _ => none

/-- The connection whose transaction the next call ends. -/
def Session.ends : Session → Option (Fin 5)
  | ⟨_, .call (.commit conn) _⟩ => some conn
  | ⟨_, .call (.rollback conn) _⟩ => some conn
  | _ => none

structure Server where
  store : Store (Fin 5) Change
  /-- Who holds `mutex[iconn]`. -/
  sessions : Fin 5 → Option Session
  /-- The finished calls with their answers. -/
  answered : List (Request × Option Reply)
  count : ℕ
  exited : Bool

def Server.start : Server := ⟨.start, fun _ => none, [], 0, false⟩

inductive BankStep where
  | enter (iconn : Option (Fin 5)) (stbank : StBank)
  | call (iconn : Fin 5) (fault : Option ℕ+)
  | leave (iconn : Fin 5)
  | mainExit

/-- One step over the tables that were there at the start.  While a thread tries one mutex after the
other they may be unlocked behind it, so it may get any free one, or none. -/
def bankStep (t : Tables) (s : Server) (a : BankStep) : Option Server :=
  if s.exited then none
  else
    match a with
    | .enter none stbank =>
        match procmessage none stbank with
        | .ret answer =>
            some { s with
              answered := s.answered ++ [(⟨s.count, stbank⟩, answer)]
              count := s.count + 1 }
        | .call _ _ => none
    | .enter (some iconn) stbank =>
        if (s.sessions iconn).isNone then
          some { s with
            sessions := Function.update s.sessions iconn
              (some ⟨⟨s.count, stbank⟩, procmessage (some iconn) stbank⟩)
            count := s.count + 1 }
        else none
    | .call iconn fault =>
        match s.sessions iconn with
        | some ⟨request, .call op next⟩ =>
            (perform t request fault op s.store).map fun r =>
              { s with
                store := r.1
                sessions := Function.update s.sessions iconn (some ⟨request, next r.2⟩) }
        | _ => none
    | .leave iconn =>
        match s.sessions iconn with
        | some ⟨request, .ret answer⟩ =>
            some { s with
              sessions := Function.update s.sessions iconn none
              answered := s.answered ++ [(request, answer)] }
        | _ => none
    -- the connections are disconnected, which rolls them back
    | .mainExit =>
        some { s with store := s.store.rollbackAll, sessions := fun _ => none, exited := true }

/-! ## One step -/

section
variable {t : Tables} {s s' : Server}

theorem step_busy {stbank : StBank} (h : bankStep t s (.enter none stbank) = some s') :
    ∃ answer, ¬ Acknowledged answer ∧ s' = { s with
      answered := s.answered ++ [(⟨s.count, stbank⟩, answer)], count := s.count + 1 } := by
  simp only [bankStep, Option.ite_none_left_eq_some] at h
  exact ⟨_, not_acknowledged (by decide) _, (Option.some.inj h.2).symm⟩

theorem step_enter {iconn : Fin 5} {stbank : StBank}
    (h : bankStep t s (.enter (some iconn) stbank) = some s') :
    s.sessions iconn = none ∧ s' = { s with
      sessions := Function.update s.sessions iconn
        (some ⟨⟨s.count, stbank⟩, procmessage (some iconn) stbank⟩)
      count := s.count + 1 } := by
  simp only [bankStep, Option.ite_none_left_eq_some, Option.ite_none_right_eq_some,
    Option.some.injEq] at h
  exact ⟨Option.isNone_iff_eq_none.mp h.2.1, h.2.2.symm⟩

theorem step_call {iconn : Fin 5} {fault : Option ℕ+}
    (h : bankStep t s (.call iconn fault) = some s') :
    ∃ request op next store r, s.sessions iconn = some ⟨request, .call op next⟩ ∧
      perform t request fault op s.store = some (store, r) ∧ s' = { s with
        store := store
        sessions := Function.update s.sessions iconn (some ⟨request, next r⟩) } := by
  simp only [bankStep, Option.ite_none_left_eq_some] at h
  obtain ⟨-, h⟩ := h
  split at h
  · rename_i request op next hsession
    obtain ⟨r, hr, rfl⟩ := Option.map_eq_some_iff.mp h
    exact ⟨request, op, next, r.1, r.2, hsession, hr, rfl⟩
  · cases h

theorem step_leave {iconn : Fin 5} (h : bankStep t s (.leave iconn) = some s') :
    ∃ request answer, s.sessions iconn = some ⟨request, .ret answer⟩ ∧ s' = { s with
      sessions := Function.update s.sessions iconn none
      answered := s.answered ++ [(request, answer)] } := by
  simp only [bankStep, Option.ite_none_left_eq_some] at h
  obtain ⟨-, h⟩ := h
  split at h
  · rename_i request answer hsession
    exact ⟨request, answer, hsession, (Option.some.inj h).symm⟩
  · cases h

theorem step_mainExit (h : bankStep t s .mainExit = some s') :
    s' = { s with store := s.store.rollbackAll, sessions := fun _ => none, exited := true } := by
  simp only [bankStep, Option.ite_none_left_eq_some, Option.some.injEq] at h
  exact h.2.symm

/-- What a statement does to the store. -/
theorem perform_execute {request : Request} {fault : Option ℕ+} {conn : Fin 5} {block : Block}
    {store store' : Store (Fin 5) Change} {r : Except ℕ+ Unit}
    (h : perform t request fault (.execute conn block) store = some (store', r)) :
    (∃ code, fault = some code ∧ r = .error code ∧ store' = store) ∨
      ∃ c, fault = none ∧ r = .ok () ∧ (t.after (store.seen conn)).executes request block = some c ∧
        ¬ c.Waits store conn ∧ store' = store.execute conn c := by
  rcases fault with - | code
  · right
    simp only [perform] at h
    split at h
    · cases h
    · rename_i c hc
      simp only [Option.ite_none_left_eq_some, Option.some.injEq, Prod.mk.injEq] at h
      exact ⟨c, rfl, h.2.2.symm, hc, h.1, h.2.1.symm⟩
  · left
    cases h
    exact ⟨code, rfl, rfl, rfl⟩

theorem perform_select {request : Request} {fault : Option ℕ+} {conn : Fin 5} {query : Query}
    {store store' : Store (Fin 5) Change} {r : Except ℕ+ (List query.Row)}
    (h : perform t request fault (.select conn query) store = some (store', r)) :
    store' = store := by
  rcases fault with - | code <;> cases h <;> rfl

theorem perform_commit {request : Request} {fault : Option ℕ+} {conn : Fin 5}
    {store store' : Store (Fin 5) Change} {r : Unit}
    (h : perform t request fault (.commit conn) store = some (store', r)) :
    (∃ code, fault = some code ∧ store' = store) ∨ fault = none ∧ store' = store.commit conn := by
  rcases fault with - | code <;> cases h
  · exact .inr ⟨rfl, rfl⟩
  · exact .inl ⟨code, rfl, rfl⟩

theorem perform_rollback {request : Request} {fault : Option ℕ+} {conn : Fin 5}
    {store store' : Store (Fin 5) Change} {r : Unit}
    (h : perform t request fault (.rollback conn) store = some (store', r)) :
    (∃ code, fault = some code ∧ store' = store) ∨
      fault = none ∧ store' = store.rollback conn := by
  rcases fault with - | code <;> cases h
  · exact .inr ⟨rfl, rfl⟩
  · exact .inl ⟨code, rfl, rfl⟩

/-- The store of the next state: the same, the one after a call, or the one after all rollbacks. -/
theorem step_store {a : BankStep} (h : bankStep t s a = some s') :
    s'.store = s.store ∨ s'.store = s.store.rollbackAll ∨
      ∃ iconn fault request op next r, a = .call iconn fault ∧
        s.sessions iconn = some ⟨request, .call op next⟩ ∧
          perform t request fault op s.store = some (s'.store, r) := by
  cases a with
  | enter iconn stbank =>
      left
      rcases iconn with - | iconn
      · obtain ⟨answer, -, rfl⟩ := step_busy h
        rfl
      · obtain ⟨-, rfl⟩ := step_enter h
        rfl
  | call iconn fault =>
      obtain ⟨request, op, next, store, r, hsession, hperform, rfl⟩ := step_call h
      exact .inr (.inr ⟨iconn, fault, request, op, next, r, rfl, hsession, hperform⟩)
  | leave iconn =>
      obtain ⟨request, answer, -, rfl⟩ := step_leave h
      exact .inl rfl
  | mainExit =>
      obtain rfl := step_mainExit h
      exact .inr (.inl rfl)

/-! ## Locks and rows -/

/-- No two connections change one row, and every change that counts as matched finds its row in
what a connection sees. -/
structure Coherent (t : Tables) (store : Store (Fin 5) Change) : Prop where
  apart : store.Apart Change.locks
  found : ∀ i, t.Matches (store.seen i)

theorem coherent_start (t : Tables) : Coherent t .start := ⟨Store.apart_start, fun _ => trivial⟩

variable {store store' : Store (Fin 5) Change}

theorem Coherent.found_committed (h : Coherent t store) : t.Matches store.committed :=
  (Tables.matches_append.mp (h.found 0)).1

theorem Coherent.rollbackAll (h : Coherent t store) : Coherent t store.rollbackAll := by
  refine ⟨h.apart.rollbackAll, fun _ => ?_⟩
  exact Tables.matches_append.mpr ⟨h.found_committed, trivial⟩

theorem Coherent.execute {request : Request} {block : Block} {conn : Fin 5} {c : Change}
    (h : Coherent t store) (hc : (t.after (store.seen conn)).executes request block = some c)
    (hwaits : ¬ c.Waits store conn) : Coherent t (store.execute conn c) := by
  refine ⟨h.apart.execute fun row hrow hlocked => hwaits ⟨row, hrow, hlocked⟩, fun j => ?_⟩
  by_cases hj : j = conn
  · subst hj
    rw [Store.seen, Store.committed_execute, Store.pending_execute, ← List.append_assoc]
    exact Tables.matches_append.mpr ⟨h.found j, Tables.matches_singleton_of_executes hc⟩
  · rw [Store.seen, Store.committed_execute, Store.pending_execute_of_ne hj]
    exact h.found j

/-- Other connections see more rows after a commit. -/
theorem Coherent.commit (h : Coherent t store) (conn : Fin 5) : Coherent t (store.commit conn) := by
  refine ⟨h.apart.commit conn, fun j => ?_⟩
  have hcommitted : t.Matches (store.committed ++ store.pending conn) := h.found conn
  refine Tables.matches_append.mpr ⟨hcommitted, ?_⟩
  by_cases hj : j = conn
  · subst hj
    rw [Store.pending_commit]
    trivial
  · rw [Store.pending_commit_of_ne hj, Store.committed_commit, Tables.after_append]
    have hpending := (Tables.matches_append.mp (h.found j)).2
    exact hpending.mono (Tables.userids_subset_after _ _)

theorem Coherent.rollback (h : Coherent t store) (conn : Fin 5) :
    Coherent t (store.rollback conn) := by
  refine ⟨h.apart.rollback conn, fun j => ?_⟩
  refine Tables.matches_append.mpr ⟨h.found_committed, ?_⟩
  by_cases hj : j = conn
  · subst hj
    rw [Store.pending_rollback]
    trivial
  · rw [Store.pending_rollback_of_ne hj]
    exact (Tables.matches_append.mp (h.found j)).2

theorem Coherent.perform {request : Request} {fault : Option ℕ+} {op : BankOp} {r : op.Res}
    (h : Coherent t store) (hperform : perform t request fault op store = some (store', r)) :
    Coherent t store' := by
  cases op with
  | select conn query => exact perform_select hperform ▸ h
  | execute conn block =>
      obtain ⟨code, -, -, rfl⟩ | ⟨c, -, -, hc, hwaits, rfl⟩ := perform_execute hperform
      · exact h
      · exact h.execute hc hwaits
  | commit conn =>
      obtain ⟨code, -, rfl⟩ | ⟨-, rfl⟩ := perform_commit hperform
      · exact h
      · exact h.commit conn
  | rollback conn =>
      obtain ⟨code, -, rfl⟩ | ⟨-, rfl⟩ := perform_rollback hperform
      · exact h
      · exact h.rollback conn

theorem coherent_bankStep {a : BankStep} (h : Coherent t s.store)
    (hstep : bankStep t s a = some s') : Coherent t s'.store := by
  obtain hsame | hall | ⟨_, _, _, _, _, _, -, -, hperform⟩ := step_store hstep
  · exact hsame ▸ h
  · exact hall ▸ h.rollbackAll
  · exact h.perform hperform

end

section Examples

/-- A client with 100 on its account. -/
def oneCustomer : Tables := ⟨[], [⟨lit "a", lit "", 100, 1⟩], by decide, []⟩

def withdrawal (je : ℚ) : StBank := ⟨5, lit "o", lit "", lit "a", je, lit ""⟩

def deposit (je : ℚ) : StBank := ⟨4, lit "o", lit "", lit "a", je, lit ""⟩

/-- Two clients with 100 each. -/
def twoCustomers : Tables :=
  ⟨[], [⟨lit "a", lit "", 100, 1⟩, ⟨lit "b", lit "", 100, 1⟩], by decide, []⟩

/-- The requests of the second client. -/
def otherDeposit (je : ℚ) : StBank := ⟨4, lit "o", lit "", lit "b", je, lit ""⟩

def otherWithdrawal (je : ℚ) : StBank := ⟨5, lit "o", lit "", lit "b", je, lit ""⟩

/-- A transfer from the first client to the second. -/
def transfer (je : ℚ) : StBank := ⟨6, lit "o", lit "", lit "a", je, lit "b"⟩

end Examples

end ChatRoom.Bank
