import ChatRoom.Bank.Durable

/-!
# Transfers conserve money

Of the requests only deposits and withdrawals should change the sum of all balances, each by its
amount, and a transfer should take effect as a whole.  An update that matches no row still succeeds
and is logged, and a commit of another connection may tear a transfer apart; without these two the
books are balanced in every committed state.
-/

namespace ChatRoom.Bank

open CString Transactions StepSystem

/-- What the update adds to the sum of all balances if it finds its row. -/
def Update.amount : Update → ℚ
  | insertCustom _ _ => 0
  | addYe _ amount => amount

/-- The sum of the amounts in the log rows of requests of one type. -/
def loggedJe (msgid : ℤ) (changes : List Change) : ℚ :=
  ((changes.filter (·.request.stbank.msgid = msgid)).map (·.block.log.je)).sum

/-- The committed balances differ from those of the start by the committed deposits minus the
committed withdrawals, and of a transfer either both blocks are committed or none. -/
structure Conserves (t : Tables) (s : Server) : Prop where
  total : (t.after s.store.committed).total =
    t.total + (loggedJe 4 s.store.committed - loggedJe 5 s.store.committed)
  transfer : ∀ request, request.stbank.msgid = 6 →
    blocksBy s.store.committed request = [] ∨
      blocksBy s.store.committed request = [debitBlock request.stbank, creditBlock request.stbank]

/-- A request commits and rolls back no changes but its own. -/
def EndsOwn (s : Server) : BankStep → Prop
  | .call iconn _ => ∀ ses ∈ s.sessions iconn, ∀ conn ∈ ses.ends,
      ∀ c ∈ s.store.pending conn, c.request = ses.request
  | _ => True

/-- The account that the first statement of the block updates exists, or the amount is 0. -/
def Tables.Finds (t : Tables) (block : Block) : Prop :=
  match block.update with
  | .addYe userid amount => amount ≠ 0 → userid ∈ t.userids
  | .insertCustom _ _ => True

instance (t : Tables) : (block : Block) → Decidable (t.Finds block)
  | ⟨.addYe userid amount, _⟩ => inferInstanceAs (Decidable (amount ≠ 0 → userid ∈ t.userids))
  | ⟨.insertCustom _ _, _⟩ => isTrue trivial

/-- No update comes to nothing because its account does not exist. -/
def FindsAccounts (t : Tables) (s : Server) : BankStep → Prop
  | .call iconn none =>
      ∀ ses ∈ s.sessions iconn, ∀ e ∈ ses.executes, (t.after (s.store.seen e.1)).Finds e.2
  | _ => True

instance (t : Tables) (s : Server) : (a : BankStep) → Decidable (FindsAccounts t s a)
  | .call iconn none =>
      inferInstanceAs (Decidable (∀ ses ∈ s.sessions iconn, ∀ e ∈ ses.executes,
        (t.after (s.store.seen e.1)).Finds e.2))
  | .call _ (some _) | .enter _ _ | .leave _ | .mainExit => isTrue trivial

/-! ## The books -/

/-- The change adds what its update says. -/
def Change.Effective (c : Change) : Prop := c.added = c.block.update.amount

theorem effective_of_executes {t : Tables} {request : Request} {block : Block} {c : Change}
    (h : t.executes request block = some c) (hfinds : t.Finds block) : c.Effective := by
  rcases block with ⟨⟨target, password⟩ | ⟨target, amount⟩, log⟩
  · simp only [Tables.executes, Option.ite_none_left_eq_some, Option.some.injEq] at h
    exact h.2 ▸ rfl
  · simp only [Tables.executes, Option.some.injEq] at h
    subst h
    by_cases hexists : target ∈ t.userids
    · simp [Change.Effective, Change.added, Update.amount, hexists]
    · have hzero : amount = 0 := by
        by_contra hamount
        exact hexists (hfinds hamount)
      simp [Change.Effective, Change.added, Update.amount, hexists, hzero]

theorem loggedJe_append (msgid : ℤ) (a b : List Change) :
    loggedJe msgid (a ++ b) = loggedJe msgid a + loggedJe msgid b := by
  simp [loggedJe]

/-- The log rows of one request. -/
theorem loggedJe_of_request {changes : List Change} {request : Request}
    (h : ∀ c ∈ changes, c.request = request) (msgid : ℤ) :
    loggedJe msgid changes =
      if request.stbank.msgid = msgid then ((changes.map Change.block).map (·.log.je)).sum
      else 0 := by
  by_cases hmsgid : request.stbank.msgid = msgid
  · have hall : changes.filter (·.request.stbank.msgid = msgid) = changes :=
      List.filter_eq_self.mpr fun c hc => by simp [h c hc, hmsgid]
    rw [loggedJe, hall, if_pos hmsgid, List.map_map]
    rfl
  · have hnone : changes.filter (·.request.stbank.msgid = msgid) = [] :=
      List.filter_eq_nil_iff.mpr fun c hc => by simp [h c hc, hmsgid]
    rw [loggedJe, hnone, if_neg hmsgid]
    rfl

/-- All blocks of a request together add what the request stands for. -/
theorem sum_amount_blocks (stbank : StBank) :
    (stbank.blocks.map (·.update.amount)).sum =
      (if stbank.msgid = 4 then (stbank.blocks.map (·.log.je)).sum else 0) -
        if stbank.msgid = 5 then (stbank.blocks.map (·.log.je)).sum else 0 := by
  by_cases h2 : stbank.msgid = 2
  · simp [StBank.blocks, h2, insertBlock, Update.amount]
  by_cases h4 : stbank.msgid = 4
  · simp [StBank.blocks, h4, depositBlock, Update.amount]
  by_cases h5 : stbank.msgid = 5
  · simp [StBank.blocks, h5, debitBlock, Update.amount]
  by_cases h6 : stbank.msgid = 6
  · simp [StBank.blocks, h6, debitBlock, creditBlock, Update.amount]
  · simp [StBank.blocks, h2, h4, h5, h6]

/-- So do its changes, if each of them has found its row. -/
theorem sum_added_of_blocks {changes : List Change} {request : Request}
    (hown : ∀ c ∈ changes, c.request = request)
    (hblocks : changes.map Change.block = request.stbank.blocks)
    (heffective : ∀ c ∈ changes, c.Effective) :
    (changes.map Change.added).sum = loggedJe 4 changes - loggedJe 5 changes := by
  have hadded : changes.map Change.added = (changes.map Change.block).map (·.update.amount) := by
    rw [List.map_map]
    exact List.map_congr_left heffective
  rw [hadded, loggedJe_of_request hown, loggedJe_of_request hown, hblocks]
  exact sum_amount_blocks request.stbank

/-! ## The invariant -/

/-- Every change has found its row, and what is committed is balanced. -/
structure Balanced (t : Tables) (s : Server) : Prop where
  orderly : s.Orderly
  coherent : Coherent t s.store
  effective : ∀ i, ∀ c ∈ s.store.pending i, c.Effective
  balanced : (s.store.committed.map Change.added).sum =
    loggedJe 4 s.store.committed - loggedJe 5 s.store.committed

theorem balanced_start (t : Tables) : Balanced t .start :=
  ⟨orderly_start, coherent_start t, fun _ _ hc => absurd hc List.not_mem_nil,
    (sub_self (0 : ℚ)).symm⟩

section
variable {t : Tables} {s s' : Server}

theorem Balanced.conserves (h : Balanced t s) : Conserves t s := by
  refine ⟨?_, fun request hmsgid => ?_⟩
  · rw [Tables.total_after h.coherent.found_committed, h.balanced]
  · have hwhole := h.orderly.whole request
    rwa [StBank.blocks, if_neg (by omega), if_neg (by omega), if_neg (by omega),
      if_pos hmsgid] at hwhole

/-- A call keeps the pending changes effective. -/
theorem effective_perform {request : Request} {fault : Option ℕ+} {op : BankOp} {r : op.Res}
    {store store' : Store (Fin 5) Change}
    (h : ∀ i, ∀ c ∈ store.pending i, c.Effective)
    (hperform : perform t request fault op store = some (store', r))
    (hfinds : ∀ conn block, op = .execute conn block → fault = none →
      (t.after (store.seen conn)).Finds block) :
    ∀ i, ∀ c ∈ store'.pending i, c.Effective := by
  intro i d hd
  cases op with
  | select conn query => exact h i d (perform_select hperform ▸ hd)
  | commit conn =>
      obtain ⟨code, -, rfl⟩ | ⟨-, rfl⟩ := perform_commit hperform
      · exact h i d hd
      · exact h i d (Store.mem_pending_commit hd)
  | rollback conn =>
      obtain ⟨code, -, rfl⟩ | ⟨-, rfl⟩ := perform_rollback hperform
      · exact h i d hd
      · exact h i d (Store.mem_pending_rollback hd)
  | execute conn block =>
      obtain ⟨code, -, -, rfl⟩ | ⟨c, hfault, -, hc, -, rfl⟩ := perform_execute hperform
      · exact h i d hd
      · obtain hold | ⟨-, rfl⟩ := Store.mem_pending_execute hd
        · exact h i d hold
        · exact effective_of_executes hc (hfinds conn block rfl hfault)

/-- What a commit adds is balanced. -/
theorem CommitsAll.balanced {store store' : Store (Fin 5) Change} {i : Fin 5} {request : Request}
    (h : CommitsAll store store' i request) (hown : ∀ c ∈ store.pending i, c.request = request)
    (heffective : ∀ c ∈ store.pending i, c.Effective)
    (hbalanced : (store.committed.map Change.added).sum =
      loggedJe 4 store.committed - loggedJe 5 store.committed) :
    (store'.committed.map Change.added).sum =
      loggedJe 4 store'.committed - loggedJe 5 store'.committed := by
  rcases h with hsame | ⟨hmore, -, hblocks⟩
  · rw [hsame]
    exact hbalanced
  · rw [hmore, List.map_append, List.sum_append, loggedJe_append, loggedJe_append, hbalanced,
      sum_added_of_blocks hown hblocks heffective]
    abel

theorem balanced_bankStep (s : Server) (a : BankStep) (s' : Server) (h : Balanced t s)
    (hguard : (CommitsOwn s a ∧ EndsSucceed s a) ∧ FindsAccounts t s a)
    (hstep : bankStep t s a = some s') : Balanced t s' := by
  have horderly := orderly_bankStep s a s' h.orderly hguard.1 hstep
  have hcoherent := coherent_bankStep h.coherent hstep
  obtain hsame | hall | ⟨iconn, fault, request, op, next, r, rfl, hsession, hperform⟩ :=
    step_store hstep
  · exact ⟨horderly, hcoherent, hsame ▸ h.effective, hsame ▸ h.balanced⟩
  · refine ⟨horderly, hcoherent, fun i c hc => ?_, hall ▸ h.balanced⟩
    rw [hall] at hc
    exact absurd hc List.not_mem_nil
  · have hfits := h.orderly.fits iconn _ hsession
    have hown : ∀ conn, op = .commit conn → conn = iconn := fun conn hop => by
      subst hop
      exact hguard.1.1 _ hsession conn rfl
    obtain ⟨-, -, hcommits⟩ := hfits.call hperform hown (hguard.1.2 _ hsession)
    refine ⟨horderly, hcoherent, ?_, hcommits.balanced hfits.own (h.effective iconn) h.balanced⟩
    refine effective_perform h.effective hperform fun conn block hop hfault => ?_
    subst hop hfault
    exact hguard.2 _ hsession (conn, block) rfl

/-- A request ends the transaction of its own connection, where only its own changes are. -/
theorem endsOwn_of_orderly (h : s.Orderly) {a : BankStep} (hguard : CommitsOwn s a) :
    EndsOwn s a := by
  cases a with
  | enter _ _ | leave _ | mainExit => trivial
  | call iconn fault =>
      intro ses hses conn hends c hc
      have hfits := h.fits iconn ses hses
      suffices hconn : conn = iconn from hfits.own c (hconn ▸ hc)
      rcases ses with ⟨request, answer | ⟨conn' | conn' | conn' | conn', next⟩⟩
      case call.commit => exact hguard _ hses conn hends
      case call.rollback =>
        obtain rfl : conn' = conn := Option.some.inj hends
        obtain ⟨g, -, hallowed, -⟩ := hfits.outline
        cases g with
        | working blocks => exact hallowed
        | committed | rolledBack => exact hallowed.elim
      all_goals cases hends

end

/-! ## All runs -/

/-- In every run in which requests commit only their own connection, no commit or rollback fails,
and only existing accounts are updated, money is conserved, and no request ends a transaction of
another. -/
theorem everyState_conserves (t : Tables) {steps : List BankStep}
    (hguard : EveryStep (bankStep t)
      (fun s a => (CommitsOwn s a ∧ EndsSucceed s a) ∧ FindsAccounts t s a) .start steps) :
    EveryState (bankStep t) (Conserves t) .start steps ∧
      EveryStep (bankStep t) EndsOwn .start steps :=
  ⟨everyState_of_guarded balanced_bankStep (fun _ h => h.conserves) (balanced_start t) hguard,
    everyStep_of_guarded balanced_bankStep
      (fun _ _ _ h hstep _ => endsOwn_of_orderly h.orderly hstep.1.1) (balanced_start t) hguard⟩

section Examples

/-- A transfer among the statements of a deposit to its target, whose first try fails. -/
def transferSteps : List BankStep :=
  [.enter (some 0) (transfer 40), .call 0 none, .enter (some 1) (otherDeposit 5), .call 0 none,
    .call 1 (some ⟨1, Nat.one_pos⟩), .call 0 none, .call 1 none, .leave 1,
    .enter (some 1) (otherDeposit 5), .call 1 none, .call 1 none, .call 0 none, .call 0 none,
    .leave 1, .leave 0]

theorem everyState_conserves_concurrent :
    (EveryState (bankStep twoCustomers) (Conserves twoCustomers) .start transferSteps ∧
        EveryStep (bankStep twoCustomers) EndsOwn .start transferSteps) ∧
      ∃ s, run (bankStep twoCustomers) .start transferSteps = some s ∧
        (twoCustomers.after s.store.committed).custominfo.map Customer.ye = [60, 145] := by
  have hbalances : (run (bankStep twoCustomers) .start transferSteps).map
      (fun s => (twoCustomers.after s.store.committed).custominfo.map Customer.ye) =
        some [60, 145] := by
    decide +kernel
  exact ⟨everyState_conserves twoCustomers (by decide +kernel),
    Option.map_eq_some_iff.mp hbalances⟩

/-- A withdrawal on the second connection commits the first half of a transfer on the first one. -/
theorem not_everyState_conserves :
    ¬ ∀ (t : Tables) (steps : List BankStep),
      EveryState (bankStep t) (Conserves t) .start steps ∧
        EveryStep (bankStep t) EndsOwn .start steps := by
  intro h
  let steps : List BankStep := [.enter (some 0) (transfer 40),
    .enter (some 1) (otherWithdrawal 10),
    .call 1 none, .call 1 none, .call 0 none, .call 0 none, .call 0 none, .call 1 none]
  have hlost : (run (bankStep twoCustomers) .start steps).any
      (fun s => (twoCustomers.after s.store.committed).total = 160 ∧
        loggedJe 4 s.store.committed = 0 ∧ loggedJe 5 s.store.committed = 0) = true := by
    decide +kernel
  obtain ⟨s, hs, hany⟩ := (Option.any_eq_true _ _).mp hlost
  obtain ⟨htotal, hdeposits, hwithdrawals⟩ := of_decide_eq_true hany
  have hconserves : Conserves twoCustomers s := (h twoCustomers steps).1.last hs
  have hkept := hconserves.total
  rw [htotal, hdeposits, hwithdrawals] at hkept
  exact absurd hkept (by decide +kernel)

end Examples

end ChatRoom.Bank
