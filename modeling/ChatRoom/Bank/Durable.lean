import ChatRoom.Bank.Server

/-!
# Acknowledged requests are durable

Each request should commit what it has changed, and leave nothing behind on the connection that it
gives back.  A withdrawal and a transfer commit the first connection of the pool instead of their
own.
-/

namespace ChatRoom.Bank

open CString Transactions Program StepSystem

/-! ## Committed blocks -/

/-- The blocks of a request in a list of changes, in order. -/
def blocksBy (changes : List Change) (request : Request) : List Block :=
  (changes.filter (·.request = request)).map Change.block

theorem blocksBy_append (a b : List Change) (request : Request) :
    blocksBy (a ++ b) request = blocksBy a request ++ blocksBy b request := by
  simp [blocksBy]

theorem blocksBy_eq_nil {changes : List Change} {request : Request}
    (h : ∀ c ∈ changes, c.request ≠ request) : blocksBy changes request = [] := by
  rw [blocksBy, List.filter_eq_nil_iff.mpr fun c hc => by simpa using h c hc]
  rfl

theorem blocksBy_eq_map {changes : List Change} {request : Request}
    (h : ∀ c ∈ changes, c.request = request) :
    blocksBy changes request = changes.map Change.block := by
  rw [blocksBy, List.filter_eq_self.mpr fun c hc => by simpa using h c hc]

/-- A request that changes the tables and is answered with 0 has all its updates and log rows
committed, and nothing is pending on a connection that nobody holds. -/
structure Server.Durable (s : Server) : Prop where
  acknowledged : ∀ call ∈ s.answered, call.1.stbank.Changes → Acknowledged call.2 →
    blocksBy s.store.committed call.1 = call.1.stbank.blocks
  released : ∀ i, s.sessions i = none → s.store.pending i = []

/-- A request commits no connection but its own. -/
def CommitsOwn (s : Server) : BankStep → Prop
  | .call iconn _ => ∀ ses ∈ s.sessions iconn, ∀ conn ∈ ses.commits, conn = iconn
  | _ => True

instance (s : Server) : (a : BankStep) → Decidable (CommitsOwn s a)
  | .call iconn _ =>
      inferInstanceAs (Decidable (∀ ses ∈ s.sessions iconn, ∀ conn ∈ ses.commits, conn = iconn))
  | .enter _ _ | .leave _ | .mainExit => isTrue trivial

/-- A commit or rollback that is called does not fail. -/
def EndsSucceed (s : Server) : BankStep → Prop
  | .call iconn fault => ∀ ses ∈ s.sessions iconn, ses.ends ≠ none → fault = none
  | _ => True

instance (s : Server) : (a : BankStep) → Decidable (EndsSucceed s a)
  | .call iconn fault =>
      inferInstanceAs (Decidable (∀ ses ∈ s.sessions iconn, ses.ends ≠ none → fault = none))
  | .enter _ _ | .leave _ | .mainExit => isTrue trivial

/-! ## The invariant -/

/-- The store agrees with how far a request is on its connection. -/
def Progress.Agrees (store : Store (Fin 5) Change) (i : Fin 5) (request : Request) :
    Progress → Prop
  | working blocks =>
      (store.pending i).map Change.block = blocks ∧ blocksBy store.committed request = []
  | committed =>
      store.pending i = [] ∧ blocksBy store.committed request = request.stbank.blocks
  | rolledBack => store.pending i = [] ∧ blocksBy store.committed request = []

/-- The rest of the program fits to what is pending on its connection. -/
structure Session.Fits (ses : Session) (store : Store (Fin 5) Change) (i : Fin 5) : Prop where
  own : ∀ c ∈ store.pending i, c.request = ses.request
  outline : ∃ g : Progress, g.Agrees store i ses.request ∧
    Outline (discipline i ses.request.stbank) (Settled ses.request.stbank) ses.rest g

/-- Every connection with pending changes is held by the one request that made them, and what is
committed for a request is nothing or all. -/
structure Server.Orderly (s : Server) : Prop where
  released : ∀ i, s.sessions i = none → s.store.pending i = []
  fits : ∀ i ses, s.sessions i = some ses → ses.Fits s.store i
  distinct : ∀ i j ses ses', s.sessions i = some ses → s.sessions j = some ses' →
    ses.request = ses'.request → i = j
  sessionId : ∀ i ses, s.sessions i = some ses → ses.request.id < s.count
  changeId : ∀ c ∈ s.store.committed, c.request.id < s.count
  answeredId : ∀ call ∈ s.answered, call.1.id < s.count
  finished : ∀ call ∈ s.answered, ∀ i ses, s.sessions i = some ses → ses.request ≠ call.1
  acknowledged : ∀ call ∈ s.answered, call.1.stbank.Changes → Acknowledged call.2 →
    blocksBy s.store.committed call.1 = call.1.stbank.blocks
  whole : ∀ request, blocksBy s.store.committed request = [] ∨
    blocksBy s.store.committed request = request.stbank.blocks

theorem Server.Orderly.durable {s : Server} (h : s.Orderly) : s.Durable :=
  ⟨h.acknowledged, h.released⟩

theorem orderly_start : Server.start.Orderly where
  released _ _ := rfl
  fits _ _ h := by cases h
  distinct _ _ _ _ h := by cases h
  sessionId _ _ h := by cases h
  changeId _ h := absurd h List.not_mem_nil
  answeredId _ h := absurd h List.not_mem_nil
  finished _ h := absurd h List.not_mem_nil
  acknowledged _ h := absurd h List.not_mem_nil
  whole _ := .inl rfl

/-- A session of the table after one connection was set is the new one or an old one. -/
theorem session_of_update {sessions : Fin 5 → Option Session} {i j : Fin 5} {new : Option Session}
    {ses : Session} (h : Function.update sessions i new j = some ses) :
    (j = i ∧ new = some ses) ∨ (j ≠ i ∧ sessions j = some ses) := by
  by_cases hj : j = i
  · subst hj
    rw [Function.update_self] at h
    exact .inl ⟨rfl, h⟩
  · rw [Function.update_of_ne hj] at h
    exact .inr ⟨hj, h⟩

/-- A session fits as before when nothing changes on its connection and for its request. -/
theorem Session.Fits.of_eq {ses : Session} {store store' : Store (Fin 5) Change} {i : Fin 5}
    (h : ses.Fits store i) (hpending : store'.pending i = store.pending i)
    (hcommitted : blocksBy store'.committed ses.request = blocksBy store.committed ses.request) :
    ses.Fits store' i := by
  obtain ⟨g, hg, houtline⟩ := h.outline
  refine ⟨fun c hc => h.own c (hpending ▸ hc), g, ?_, houtline⟩
  cases g <;> simpa only [Progress.Agrees, hpending, hcommitted] using hg

/-! ## One call -/

/-- What the store has committed after a call: the same as before, or also all the blocks of the
request, which had none committed so far. -/
def CommitsAll (store store' : Store (Fin 5) Change) (i : Fin 5) (request : Request) : Prop :=
  store'.committed = store.committed ∨
    store'.committed = store.committed ++ store.pending i ∧
      blocksBy store.committed request = [] ∧
        (store.pending i).map Change.block = request.stbank.blocks

/-- A call that keeps to the own connection, and succeeds if it ends a transaction, leaves a session
that fits, and the other connections as they were. -/
theorem Session.Fits.call {t : Tables} {request : Request} {op : BankOp}
    {next : op.Res → BankProg (Option Reply)} {store store' : Store (Fin 5) Change} {i : Fin 5}
    {fault : Option ℕ+} {r : op.Res} (h : Session.Fits ⟨request, .call op next⟩ store i)
    (hperform : perform t request fault op store = some (store', r))
    (hown : ∀ conn, op = .commit conn → conn = i)
    (hends : Session.ends ⟨request, .call op next⟩ ≠ none → fault = none) :
    Session.Fits ⟨request, next r⟩ store' i ∧ (∀ j ≠ i, store'.pending j = store.pending j) ∧
      CommitsAll store store' i request := by
  obtain ⟨g, hg, hallowed, houtline⟩ := h.outline
  cases op with
  | select conn query =>
      obtain rfl := perform_select hperform
      refine ⟨⟨h.own, g, hg, ?_⟩, fun _ _ => rfl, .inl rfl⟩
      cases g <;> exact houtline r
  | execute conn block =>
      cases g with
      | committed | rolledBack => exact hallowed.elim
      | working blocks =>
          obtain rfl : conn = i := hallowed
          obtain ⟨code, -, rfl, rfl⟩ | ⟨c, -, rfl, hc, -, rfl⟩ := perform_execute hperform
          · exact ⟨⟨h.own, .working blocks, hg, houtline (.error code)⟩, fun _ _ => rfl, .inl rfl⟩
          · obtain ⟨hblock, hrequest⟩ := Tables.executes_block hc
            refine ⟨⟨fun d hd => ?_, .working (blocks ++ [block]), ⟨?_, hg.2⟩, houtline (.ok ())⟩,
              fun j hj => Store.pending_execute_of_ne hj, .inl rfl⟩
            · rw [Store.pending_execute, List.mem_append, List.mem_singleton] at hd
              exact hd.elim (h.own d) fun heq => heq ▸ hrequest
            · rw [Store.pending_execute, List.map_append, hg.1, List.map_singleton, hblock]
  | commit conn =>
      cases g with
      | committed | rolledBack => exact hallowed.elim
      | working blocks =>
          obtain rfl := hown conn rfl
          obtain rfl := hends (Option.some_ne_none conn)
          obtain ⟨code, hcode, -⟩ | ⟨-, rfl⟩ := perform_commit hperform
          · cases hcode
          obtain ⟨hpending, hnone⟩ := hg
          have hall : (store.pending conn).map Change.block = request.stbank.blocks :=
            hpending.trans hallowed
          have hown' : blocksBy (store.pending conn) request = request.stbank.blocks :=
            (blocksBy_eq_map h.own).trans hall
          refine ⟨⟨fun d hd => ?_, .committed, ⟨Store.pending_commit, ?_⟩, houtline ()⟩,
            fun j hj => Store.pending_commit_of_ne hj, .inr ⟨rfl, hnone, hall⟩⟩
          · exact h.own d (Store.mem_pending_commit hd)
          · rw [Store.committed_commit, blocksBy_append, hnone, hown', List.nil_append]
  | rollback conn =>
      cases g with
      | committed | rolledBack => exact hallowed.elim
      | working blocks =>
          obtain rfl : conn = i := hallowed
          obtain rfl := hends (Option.some_ne_none conn)
          obtain ⟨code, hcode, -⟩ | ⟨-, rfl⟩ := perform_rollback hperform
          · cases hcode
          refine ⟨⟨fun d hd => ?_, .rolledBack, ⟨Store.pending_rollback, hg.2⟩, houtline ()⟩,
            fun j hj => Store.pending_rollback_of_ne hj, .inl rfl⟩
          exact h.own d (Store.mem_pending_rollback hd)

/-- The commit of one request does not concern another. -/
theorem CommitsAll.blocksBy_of_ne {store store' : Store (Fin 5) Change} {i : Fin 5}
    {request other : Request} (h : CommitsAll store store' i request)
    (hown : ∀ c ∈ store.pending i, c.request = request) (hne : request ≠ other) :
    blocksBy store'.committed other = blocksBy store.committed other := by
  rcases h with h | ⟨h, -⟩
  · rw [h]
  · have hnone : blocksBy (store.pending i) other = [] :=
      blocksBy_eq_nil fun c hc => hown c hc ▸ hne
    rw [h, blocksBy_append, hnone, List.append_nil]

/-- After a call the request has the same blocks committed, or all of them. -/
theorem CommitsAll.whole {store store' : Store (Fin 5) Change} {i : Fin 5} {request : Request}
    (h : CommitsAll store store' i request) (hown : ∀ c ∈ store.pending i, c.request = request) :
    blocksBy store'.committed request = blocksBy store.committed request ∨
      blocksBy store'.committed request = request.stbank.blocks := by
  rcases h with h | ⟨h, hnone, hall⟩
  · exact .inl (by rw [h])
  · exact .inr (by rw [h, blocksBy_append, hnone, blocksBy_eq_map hown, hall, List.nil_append])

section
variable {t : Tables} {s s' : Server}

theorem orderly_call {iconn : Fin 5} {fault : Option ℕ+} (h : s.Orderly)
    (hguard : CommitsOwn s (.call iconn fault) ∧ EndsSucceed s (.call iconn fault))
    (hstep : bankStep t s (.call iconn fault) = some s') : s'.Orderly := by
  obtain ⟨request, op, next, store, r, hsession, hperform, rfl⟩ := step_call hstep
  have hfits := h.fits iconn _ hsession
  have hown : ∀ conn, op = .commit conn → conn = iconn := fun conn hop => by
    subst hop
    exact hguard.1 _ hsession conn rfl
  obtain ⟨hnext, hothers, hcommits⟩ := hfits.call hperform hown (hguard.2 _ hsession)
  have hold : ∀ j ses, Function.update s.sessions iconn (some ⟨request, next r⟩) j = some ses →
      ∃ ses', s.sessions j = some ses' ∧ ses'.request = ses.request := by
    intro j ses hses
    obtain ⟨rfl, hnew⟩ | ⟨-, hses⟩ := session_of_update hses
    · exact ⟨_, hsession, Option.some.inj hnew ▸ rfl⟩
    · exact ⟨ses, hses, rfl⟩
  refine ⟨fun i hi => ?_, fun i ses hses => ?_, fun i j ses ses' hi hj heq => ?_,
    fun i ses hses => ?_, fun c hc => ?_, h.answeredId, fun call hcall i ses hses => ?_,
    fun call hcall hchanges hack => ?_, fun other => ?_⟩
  · by_cases hne : i = iconn
    · subst hne
      simp only [Function.update_self, reduceCtorEq] at hi
    · simp only [Function.update_of_ne hne] at hi
      exact (hothers i hne).trans (h.released i hi)
  · obtain ⟨rfl, hnew⟩ | ⟨hne, hses⟩ := session_of_update hses
    · exact Option.some.inj hnew ▸ hnext
    · refine (h.fits i ses hses).of_eq (hothers i hne) (hcommits.blocksBy_of_ne hfits.own ?_)
      intro hsame
      exact hne (h.distinct i iconn ses _ hses hsession hsame.symm)
  · obtain ⟨old, hold₁, heq₁⟩ := hold i ses hi
    obtain ⟨old', hold₂, heq₂⟩ := hold j ses' hj
    exact h.distinct i j old old' hold₁ hold₂ (heq₁.trans (heq.trans heq₂.symm))
  · obtain ⟨old, hold₁, heq₁⟩ := hold i ses hses
    exact heq₁ ▸ h.sessionId i old hold₁
  · rcases hcommits with hsame | ⟨hmore, -⟩
    · exact h.changeId c (hsame ▸ hc)
    · rcases List.mem_append.mp (hmore ▸ hc) with hc | hc
      · exact h.changeId c hc
      · exact hfits.own c hc ▸ h.sessionId iconn _ hsession
  · obtain ⟨old, hold₁, heq₁⟩ := hold i ses hses
    exact heq₁ ▸ h.finished call hcall i old hold₁
  · have hother := hcommits.blocksBy_of_ne hfits.own (h.finished call hcall iconn _ hsession)
    exact hother.trans (h.acknowledged call hcall hchanges hack)
  · by_cases hother : request = other
    · subst hother
      rcases hcommits.whole hfits.own with hsame | hall
      · exact (h.whole request).imp hsame.trans hsame.trans
      · exact .inr hall
    · have hsame := hcommits.blocksBy_of_ne hfits.own hother
      exact (h.whole other).imp hsame.trans hsame.trans

/-- A new call has a free connection and a number of its own. -/
theorem orderly_enter {iconn : Fin 5} {stbank : StBank} (h : s.Orderly)
    (hstep : bankStep t s (.enter (some iconn) stbank) = some s') : s'.Orderly := by
  obtain ⟨hfree, rfl⟩ := step_enter hstep
  let new : Session := ⟨⟨s.count, stbank⟩, procmessage (some iconn) stbank⟩
  have hpending := h.released iconn hfree
  have hnone : blocksBy s.store.committed new.request = [] :=
    blocksBy_eq_nil fun c hc heq => absurd (h.changeId c hc) (by simp [heq, new])
  have hfits : new.Fits s.store iconn := by
    refine ⟨fun c hc => ?_, .working [], ⟨by simp [hpending], hnone⟩, ?_⟩
    · rw [hpending] at hc
      exact absurd hc List.not_mem_nil
    · exact outline_procmessage iconn stbank
  have hcases : ∀ j ses, Function.update s.sessions iconn (some new) j = some ses →
      (j = iconn ∧ ses = new) ∨ (j ≠ iconn ∧ s.sessions j = some ses) := fun j ses hses =>
    (session_of_update hses).imp_left fun ⟨hj, hnew⟩ => ⟨hj, (Option.some.inj hnew).symm⟩
  have hnew : ∀ j ses, s.sessions j = some ses → ses.request ≠ new.request := by
    intro j ses hses heq
    exact absurd (h.sessionId j ses hses) (by simp [heq, new])
  refine ⟨fun i hi => ?_, fun i ses hses => ?_, fun i j ses ses' hsi hsj heq => ?_,
    fun i ses hses => ?_, fun c hc => ?_, fun call hcall => ?_, fun call hcall i ses hses => ?_,
    h.acknowledged, h.whole⟩
  · by_cases hne : i = iconn
    · subst hne
      exact hpending
    · simp only [Function.update_of_ne hne] at hi
      exact h.released i hi
  · obtain ⟨rfl, rfl⟩ | ⟨-, hses⟩ := hcases i ses hses
    · exact hfits
    · exact h.fits i ses hses
  · obtain ⟨rfl, rfl⟩ | ⟨-, hi⟩ := hcases i ses hsi
    · obtain ⟨rfl, -⟩ | ⟨-, hj⟩ := hcases j ses' hsj
      · rfl
      · exact absurd heq.symm (hnew j ses' hj)
    · obtain ⟨rfl, rfl⟩ | ⟨-, hj⟩ := hcases j ses' hsj
      · exact absurd heq (hnew i ses hi)
      · exact h.distinct i j ses ses' hi hj heq
  · obtain ⟨-, rfl⟩ | ⟨-, hses⟩ := hcases i ses hses
    · exact Nat.lt_succ_self _
    · exact Nat.lt_succ_of_lt (h.sessionId i ses hses)
  · exact Nat.lt_succ_of_lt (h.changeId c hc)
  · exact Nat.lt_succ_of_lt (h.answeredId call hcall)
  · obtain ⟨-, rfl⟩ | ⟨-, hses⟩ := hcases i ses hses
    · intro heq
      have hid := h.answeredId call hcall
      rw [← heq] at hid
      exact absurd hid (Nat.lt_irrefl _)
    · exact h.finished call hcall i ses hses

/-- A call that found no connection has not done anything. -/
theorem orderly_busy {stbank : StBank} (h : s.Orderly)
    (hstep : bankStep t s (.enter none stbank) = some s') : s'.Orderly := by
  obtain ⟨answer, hrefused, rfl⟩ := step_busy hstep
  refine ⟨h.released, h.fits, h.distinct,
    fun i ses hses => Nat.lt_succ_of_lt (h.sessionId i ses hses),
    fun c hc => Nat.lt_succ_of_lt (h.changeId c hc), fun call hcall => ?_,
    fun call hcall i ses hses => ?_, fun call hcall hchanges hack => ?_, h.whole⟩
  · rcases List.mem_append.mp hcall with hcall | hcall
    · exact Nat.lt_succ_of_lt (h.answeredId call hcall)
    · rw [List.mem_singleton.mp hcall]
      exact Nat.lt_succ_self _
  · rcases List.mem_append.mp hcall with hcall | hcall
    · exact h.finished call hcall i ses hses
    · intro heq
      have hid := h.sessionId i ses hses
      rw [heq, List.mem_singleton.mp hcall] at hid
      exact absurd hid (Nat.lt_irrefl _)
  · rcases List.mem_append.mp hcall with hcall | hcall
    · exact h.acknowledged call hcall hchanges hack
    · rw [List.mem_singleton.mp hcall] at hack
      exact absurd hack hrefused

/-- At the end of a call nothing is pending, and an acknowledged one has committed. -/
theorem Session.Fits.finish {request : Request} {answer : Option Reply}
    {store : Store (Fin 5) Change} {i : Fin 5} (h : Session.Fits ⟨request, .ret answer⟩ store i) :
    store.pending i = [] ∧ (request.stbank.Changes → Acknowledged answer →
      blocksBy store.committed request = request.stbank.blocks) := by
  obtain ⟨g, hg, hsettled⟩ := h.outline
  cases g with
  | working blocks =>
      obtain ⟨hnil, hnot⟩ := hsettled
      refine ⟨List.map_eq_nil_iff.mp (hg.1.trans hnil), fun hchanges hack => ?_⟩
      exact absurd ⟨hchanges, hack⟩ hnot
  | committed => exact ⟨hg.1, fun _ _ => hg.2⟩
  | rolledBack => exact ⟨hg.1, fun _ hack => absurd hack hsettled⟩

theorem orderly_leave {iconn : Fin 5} (h : s.Orderly)
    (hstep : bankStep t s (.leave iconn) = some s') : s'.Orderly := by
  obtain ⟨request, answer, hsession, rfl⟩ := step_leave hstep
  obtain ⟨hpending, hall⟩ := (h.fits iconn _ hsession).finish
  have hcases : ∀ j ses, Function.update s.sessions iconn none j = some ses →
      j ≠ iconn ∧ s.sessions j = some ses := fun j ses hses =>
    (session_of_update hses).resolve_left fun ⟨_, hnone⟩ => absurd hnone (by simp)
  refine ⟨fun i hi => ?_, fun i ses hses => h.fits i ses (hcases i ses hses).2,
    fun i j ses ses' hi hj heq =>
      h.distinct i j ses ses' (hcases i ses hi).2 (hcases j ses' hj).2 heq,
    fun i ses hses => h.sessionId i ses (hcases i ses hses).2, h.changeId, fun call hcall => ?_,
    fun call hcall i ses hses => ?_, fun call hcall hchanges hack => ?_, h.whole⟩
  · by_cases hne : i = iconn
    · subst hne
      exact hpending
    · simp only [Function.update_of_ne hne] at hi
      exact h.released i hi
  · rcases List.mem_append.mp hcall with hcall | hcall
    · exact h.answeredId call hcall
    · rw [List.mem_singleton.mp hcall]
      exact h.sessionId iconn _ hsession
  · obtain ⟨hne, hses⟩ := hcases i ses hses
    rcases List.mem_append.mp hcall with hcall | hcall
    · exact h.finished call hcall i ses hses
    · rw [List.mem_singleton.mp hcall]
      exact fun heq => hne (h.distinct i iconn ses _ hses hsession heq)
  · rcases List.mem_append.mp hcall with hcall | hcall
    · exact h.acknowledged call hcall hchanges hack
    · rw [List.mem_singleton.mp hcall] at hchanges hack ⊢
      exact hall hchanges hack

theorem orderly_mainExit (h : s.Orderly) (hstep : bankStep t s .mainExit = some s') :
    s'.Orderly := by
  obtain rfl := step_mainExit hstep
  refine ⟨fun _ _ => rfl, fun _ _ hses => ?_, fun _ _ _ _ hses => ?_, fun _ _ hses => ?_,
    h.changeId, h.answeredId, fun _ _ _ _ hses => ?_, h.acknowledged, h.whole⟩
  all_goals cases hses

theorem orderly_bankStep (s : Server) (a : BankStep) (s' : Server) (h : s.Orderly)
    (hguard : CommitsOwn s a ∧ EndsSucceed s a) (hstep : bankStep t s a = some s') :
    s'.Orderly := by
  cases a with
  | enter iconn stbank =>
      cases iconn with
      | none => exact orderly_busy h hstep
      | some iconn => exact orderly_enter h hstep
  | call iconn fault => exact orderly_call h hguard hstep
  | leave iconn => exact orderly_leave h hstep
  | mainExit => exact orderly_mainExit h hstep

end

/-! ## All runs -/

/-- In every run in which no request commits a connection other than its own, and no commit or
rollback fails, the acknowledged requests are durable and nothing is left behind on a connection. -/
theorem everyState_durable (t : Tables) {steps : List BankStep}
    (hguard : EveryStep (bankStep t) (fun s a => CommitsOwn s a ∧ EndsSucceed s a) .start steps) :
    EveryState (bankStep t) Server.Durable .start steps :=
  everyState_of_guarded orderly_bankStep (fun _ h => h.durable) orderly_start hguard

section Examples

/-- A withdrawal on the first connection, among the statements of one on the second connection that
fails, and of a deposit on the third one that waits for the first. -/
def concurrentSteps : List BankStep :=
  [.enter (some 0) (withdrawal 40), .enter (some 1) (otherWithdrawal 30), .call 1 none,
    .enter (some 2) (deposit 10), .call 0 none, .call 0 none, .call 1 (some ⟨1, Nat.one_pos⟩),
    .call 0 none, .call 2 none, .leave 0, .call 1 none, .call 2 none, .leave 2, .leave 1]

theorem everyState_durable_concurrent :
    EveryState (bankStep twoCustomers) Server.Durable .start concurrentSteps ∧
      ∃ s, run (bankStep twoCustomers) .start concurrentSteps = some s ∧
        s.answered.map (·.2) = [some (reply 0 "ok"), some (reply 0 "ok"),
          some (reply (-1) "系统故障。")] := by
  have hanswers : (run (bankStep twoCustomers) .start concurrentSteps).map
      (fun s => s.answered.map (·.2)) = some [some (reply 0 "ok"), some (reply 0 "ok"),
        some (reply (-1) "系统故障。")] := by
    decide +kernel
  exact ⟨everyState_durable twoCustomers (by decide +kernel),
    Option.map_eq_some_iff.mp hanswers⟩

/-- A withdrawal on the second connection, while the first one is in use. -/
theorem not_everyState_durable :
    ¬ ∀ (t : Tables) (steps : List BankStep),
      EveryState (bankStep t) Server.Durable .start steps := by
  intro h
  let steps : List BankStep := [.enter (some 0) (withdrawal 10), .enter (some 1) (withdrawal 40),
    .call 1 none, .call 1 none, .call 1 none, .leave 1]
  have hleft : (run (bankStep oneCustomer) .start steps).any
      (fun s => (s.sessions 1).isNone && !(s.store.pending 1).isEmpty) = true := by
    decide +kernel
  obtain ⟨s, hs, hpending⟩ := (Option.any_eq_true _ _).mp hleft
  simp only [Bool.and_eq_true, Option.isNone_iff_eq_none, Bool.not_eq_true',
    List.isEmpty_eq_false_iff] at hpending
  have hdurable : s.Durable := (h oneCustomer steps).last hs
  exact hpending.2 (hdurable.released 1 hpending.1)

end Examples

end ChatRoom.Bank
