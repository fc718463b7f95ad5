import ChatRoom.Bank.Server

/-!
# Requests one after the other

A request that is alone takes the first connection and runs through.  What it has committed, if it
is acknowledged, is the outcome of its blocks on the committed tables.
-/

namespace ChatRoom.Bank

open CString Transactions Program StepSystem

/-- `procmessage` while no other request is under way. -/
def serve (t : Tables) (request : Request) (store : Store (Fin 5) Change) :
    Option (Store (Fin 5) Change × Option Reply) :=
  (procmessage (some 0) request.stbank).run (perform t request none) store

instance (answer : Option Reply) : Decidable (Acknowledged answer) :=
  decidable_of_iff (∃ r ∈ answer, r.retno = 0) Iff.rfl

/-- Requests that change the tables, each served and acknowledged before the next one; `none` if one
of them is not.  The first one gets the number `n`. -/
def serveAll (t : Tables) : ℕ → List StBank → Store (Fin 5) Change → Option (Store (Fin 5) Change)
  | _, [], store => some store
  | n, stbank :: requests, store => do
      let (store, answer) ← serve t ⟨n, stbank⟩ store
      if stbank.Changes ∧ Acknowledged answer then serveAll t (n + 1) requests store else none

/-! ## Sequential runs are runs of the server -/

section
variable {t : Tables} {s : Server}

theorem exists_run_rest {i : Fin 5} {request : Request} {rest : BankProg (Option Reply)}
    {store : Store (Fin 5) Change} {answer : Option Reply} (hexited : s.exited = false)
    (hsession : s.sessions i = some ⟨request, rest⟩)
    (hrun : rest.run (perform t request none) s.store = some (store, answer)) :
    ∃ steps, run (bankStep t) s steps = some { s with
      store := store
      sessions := Function.update s.sessions i (some ⟨request, .ret answer⟩) } := by
  induction rest generalizing s with
  | ret a =>
      obtain ⟨rfl, rfl⟩ := Prod.mk.inj (Option.some.inj hrun)
      refine ⟨[], ?_⟩
      rw [run_nil, ← hsession, Function.update_eq_self]
  | call op next ih =>
      obtain ⟨⟨store₁, r⟩, hperform, hrest⟩ := Option.bind_eq_some_iff.mp hrun
      let s₁ : Server := { s with
        store := store₁
        sessions := Function.update s.sessions i (some ⟨request, next r⟩) }
      have hstep : bankStep t s (.call i none) = some s₁ := by
        simp [bankStep, hexited, hsession, hperform, s₁]
      obtain ⟨steps, hsteps⟩ := ih r (s := s₁) hexited (Function.update_self ..) hrest
      refine ⟨.call i none :: steps, ?_⟩
      rw [run_cons, hstep, Option.bind_some, hsteps, Function.update_idem]

/-- A request that is served alone is served by the server so. -/
theorem exists_run_serve {stbank : StBank} {store : Store (Fin 5) Change} {answer : Option Reply}
    (hexited : s.exited = false) (hfree : s.sessions 0 = none)
    (hserve : serve t ⟨s.count, stbank⟩ s.store = some (store, answer)) :
    ∃ steps, run (bankStep t) s steps = some { s with
      store := store
      answered := s.answered ++ [(⟨s.count, stbank⟩, answer)]
      count := s.count + 1 } := by
  let s₁ : Server := { s with
    sessions := Function.update s.sessions 0
      (some ⟨⟨s.count, stbank⟩, procmessage (some 0) stbank⟩)
    count := s.count + 1 }
  have henter : bankStep t s (.enter (some 0) stbank) = some s₁ := by
    simp [bankStep, hexited, hfree, s₁]
  obtain ⟨steps, hsteps⟩ := exists_run_rest (s := s₁) hexited (Function.update_self ..) hserve
  have hreleased : Function.update s.sessions 0 none = s.sessions := by
    rw [← hfree, Function.update_eq_self]
  refine ⟨.enter (some 0) stbank :: (steps ++ [.leave 0]), ?_⟩
  rw [run_cons, henter, Option.bind_some, run_append, hsteps]
  simp [bankStep, hexited, hreleased, s₁]

/-- The requests of a sequential run are all answered, and nothing else changes. -/
theorem exists_run_serveAll {requests : List StBank} {store : Store (Fin 5) Change}
    (hexited : s.exited = false) (hfree : s.sessions 0 = none)
    (hserve : serveAll t s.count requests s.store = some store) :
    ∃ steps s', run (bankStep t) s steps = some s' ∧ s'.store = store ∧
      s'.sessions = s.sessions := by
  induction requests generalizing s with
  | nil => exact ⟨[], s, rfl, Option.some.inj hserve, rfl⟩
  | cons stbank requests ih =>
      obtain ⟨⟨store₁, answer⟩, hfirst, hrest⟩ := Option.bind_eq_some_iff.mp hserve
      obtain ⟨steps, hsteps⟩ := exists_run_serve hexited hfree hfirst
      obtain ⟨-, hrest⟩ := Option.ite_none_right_eq_some.mp hrest
      obtain ⟨steps', s', hsteps', hstore, hsessions⟩ := ih (s := { s with
        store := store₁
        answered := s.answered ++ [(⟨s.count, stbank⟩, answer)]
        count := s.count + 1 }) hexited hfree hrest
      refine ⟨steps ++ steps', s', ?_, hstore, hsessions⟩
      rw [run_append, hsteps]
      exact hsteps'

end

/-! ## What an acknowledged request has done -/

/-- The changes that the blocks of a request come to, one after the other. -/
def Tables.settle (t : Tables) (request : Request) : List Block → Option (List Change)
  | [] => some []
  | block :: blocks => do
      let c ← t.executes request block
      let changes ← (t.apply c).settle request blocks
      return c :: changes

theorem Tables.settle_cons {t : Tables} {request : Request} {block : Block} {blocks : List Block}
    {changes : List Change} (h : t.settle request (block :: blocks) = some changes) :
    ∃ c rest, t.executes request block = some c ∧
      (t.apply c).settle request blocks = some rest ∧ changes = c :: rest := by
  obtain ⟨c, hc, h⟩ := Option.bind_eq_some_iff.mp h
  obtain ⟨rest, hrest, h⟩ := Option.bind_eq_some_iff.mp h
  exact ⟨c, rest, hc, hrest, (Option.some.inj h).symm⟩

theorem Tables.settle_singleton_iff {t : Tables} {request : Request} {block : Block}
    {changes : List Change} :
    t.settle request [block] = some changes ↔
      ∃ c, t.executes request block = some c ∧ changes = [c] := by
  constructor
  · intro h
    obtain ⟨c, rest, hc, hnone, rfl⟩ := Tables.settle_cons h
    exact ⟨c, hc, by rw [Option.some.inj hnone]⟩
  · rintro ⟨c, hc, rfl⟩
    simp [Tables.settle, hc]

section
variable {t : Tables} {request : Request} {store store' : Store (Fin 5) Change} {α : Type}

/-- A program that executes a block first. -/
theorem run_execute {conn : Fin 5} {block : Block} {f : Except ℕ+ Unit → BankProg α}
    {r : Store (Fin 5) Change × α}
    (h : ((execute conn block).bind f).run (perform t request none) store = some r) :
    ∃ c, (t.after (store.seen conn)).executes request block = some c ∧
      (f (.ok ())).run (perform t request none) (store.execute conn c) = some r := by
  obtain ⟨⟨store₁, executed⟩, hperform, hrest⟩ := Option.bind_eq_some_iff.mp h
  obtain ⟨code, hfault, -⟩ | ⟨c, -, rfl, hc, -, rfl⟩ := perform_execute hperform
  · cases hfault
  · exact ⟨c, hc, hrest⟩

theorem serve_open {answer : Option Reply} (hmsgid : request.stbank.msgid = 2)
    (hserve : serve t request store = some (store', answer)) :
    ∃ c, (t.after (store.seen 0)).executes request (insertBlock request.stbank) = some c ∧
      store' = (store.execute 0 c).commit 0 := by
  simp only [serve, procmessage, hmsgid, msgid_2, Int.reduceEq, reduceIte, Prog.bind_eq,
    Prog.pure_eq, Prog.bind_assoc] at hserve
  obtain ⟨c, hc, hrest⟩ := run_execute hserve
  cases hrest
  exact ⟨c, hc, rfl⟩

theorem serve_deposit {answer : Option Reply} (hmsgid : request.stbank.msgid = 4)
    (hserve : serve t request store = some (store', answer)) :
    ∃ c, (t.after (store.seen 0)).executes request (depositBlock request.stbank) = some c ∧
      store' = (store.execute 0 c).commit 0 := by
  simp only [serve, procmessage, hmsgid, msgid_4, Int.reduceEq, reduceIte, Prog.bind_eq,
    Prog.pure_eq, Prog.bind_assoc] at hserve
  obtain ⟨c, hc, hrest⟩ := run_execute hserve
  cases hrest
  exact ⟨c, hc, rfl⟩

theorem serve_withdrawal {answer : Option Reply} (hmsgid : request.stbank.msgid = 5)
    (hserve : serve t request store = some (store', answer)) (hack : Acknowledged answer) :
    ∃ c, (t.after (store.seen 0)).executes request (debitBlock request.stbank) = some c ∧
      store' = (store.execute 0 c).commit 0 := by
  simp only [serve, procmessage, hmsgid, msgid_5, select, Int.reduceEq, reduceIte, Prog.bind_eq,
    Prog.pure_eq, Prog.request_bind, Prog.call_bind, Prog.run_call, perform,
    Option.bind_some] at hserve
  split at hserve
  · cases hserve
    exact absurd hack (not_acknowledged (by decide) _)
  · rw [Prog.bind_assoc] at hserve
    obtain ⟨c, hc, hrest⟩ := run_execute hserve
    cases hrest
    exact ⟨c, hc, rfl⟩

/-- A row that the query for the target of a transfer has found. -/
theorem Tables.mem_userids_of_targetRsts {t : Tables} {userid : CStr}
    (h : (t.select (.targetRsts userid)).headD 0 ≠ 0) : userid ∈ t.userids := by
  rcases hrows : t.custominfo.filter fun r => r.userid = userid ∧ (r.rsts = 1 ∨ r.rsts = 2) with
    - | ⟨r, rows⟩
  · simp only [Tables.select, hrows, List.map_nil, List.headD_nil] at h
    exact absurd rfl h
  · have hr := List.mem_filter.mp (hrows ▸ List.mem_cons_self)
    exact List.mem_map.mpr ⟨r, hr.1, (of_decide_eq_true hr.2).1⟩

theorem serve_transfer {answer : Option Reply} (hmsgid : request.stbank.msgid = 6)
    (hserve : serve t request store = some (store', answer)) (hack : Acknowledged answer) :
    ∃ c d, (t.after (store.seen 0)).executes request (debitBlock request.stbank) = some c ∧
      (t.after ((store.execute 0 c).seen 0)).executes request (creditBlock request.stbank) =
        some d ∧
        store' = ((store.execute 0 c).execute 0 d).commit 0 ∧
          request.stbank.userid1 ∈ (t.after (store.seen 0)).userids := by
  simp only [serve, procmessage, hmsgid, msgid_6, select, Int.reduceEq, reduceIte, Prog.bind_eq,
    Prog.pure_eq, Prog.request_bind, Prog.call_bind, Prog.run_call, perform,
    Option.bind_some] at hserve
  split at hserve
  · cases hserve
    exact absurd hack (not_acknowledged (by decide) _)
  · simp only [Prog.call_bind, Prog.run_call, perform, Option.bind_some] at hserve
    split at hserve
    · cases hserve
      exact absurd hack (not_acknowledged (by decide) _)
    · rename_i hrsts
      rw [Prog.bind_assoc] at hserve
      obtain ⟨c, hc, hrest⟩ := run_execute hserve
      simp only [Prog.bind_assoc] at hrest
      obtain ⟨d, hd, hend⟩ := run_execute hrest
      cases hend
      refine ⟨c, d, hc, hd, rfl, Tables.mem_userids_of_targetRsts fun hzero => hrsts ?_⟩
      have hneither : (0 : ℤ) ≠ 1 ∧ (0 : ℤ) ≠ 2 := by decide
      rw [hzero]
      exact hneither

theorem seen_of_idle (hidle : ∀ i, store.pending i = []) (i : Fin 5) :
    store.seen i = store.committed := by
  rw [Store.seen, hidle i, List.append_nil]

/-- After the only transaction has been committed nothing is pending. -/
theorem idle_commit (hidle : ∀ i, i ≠ 0 → store.pending i = []) (i : Fin 5) :
    (store.commit 0).pending i = [] := by
  by_cases hi : i = 0
  · subst hi
    exact Store.pending_commit
  · rw [Store.pending_commit_of_ne hi]
    exact hidle i hi

/-- The commit of the one block of a request. -/
theorem commits_of_oneBlock {block : Block} {c : Change} (hidle : ∀ i, store.pending i = [])
    (hblocks : request.stbank.blocks = [block]) (hmsgid : request.stbank.msgid ≠ 6)
    (hc : (t.after (store.seen 0)).executes request block = some c) :
    ∃ changes, (t.after store.committed).settle request request.stbank.blocks = some changes ∧
      ((store.execute 0 c).commit 0).committed = store.committed ++ changes ∧
        (∀ i, ((store.execute 0 c).commit 0).pending i = []) ∧
          (request.stbank.msgid = 6 →
            request.stbank.userid1 ∈ (t.after store.committed).userids) := by
  rw [seen_of_idle hidle] at hc
  refine ⟨[c], ?_, by simp [hidle], idle_commit fun i hi => ?_, fun h => absurd h hmsgid⟩
  · rw [hblocks]
    exact Tables.settle_singleton_iff.mpr ⟨c, hc, rfl⟩
  · rw [Store.pending_execute_of_ne hi, hidle i]

/-- An acknowledged request has committed all its blocks, and nothing is pending.  The target of a
transfer has existed before. -/
theorem serve_acknowledged {answer : Option Reply} (hidle : ∀ i, store.pending i = [])
    (hchanges : request.stbank.Changes) (hserve : serve t request store = some (store', answer))
    (hack : Acknowledged answer) :
    ∃ changes, (t.after store.committed).settle request request.stbank.blocks = some changes ∧
      store'.committed = store.committed ++ changes ∧ (∀ i, store'.pending i = []) ∧
        (request.stbank.msgid = 6 →
          request.stbank.userid1 ∈ (t.after store.committed).userids) := by
  simp only [StBank.Changes, List.mem_cons, List.not_mem_nil, or_false] at hchanges
  rcases hchanges with hmsgid | hmsgid | hmsgid | hmsgid
  · obtain ⟨c, hc, rfl⟩ := serve_open hmsgid hserve
    have hblocks : request.stbank.blocks = [insertBlock request.stbank] := by
      simp [StBank.blocks, hmsgid]
    exact commits_of_oneBlock hidle hblocks (by omega) hc
  · obtain ⟨c, hc, rfl⟩ := serve_deposit hmsgid hserve
    have hblocks : request.stbank.blocks = [depositBlock request.stbank] := by
      simp [StBank.blocks, hmsgid]
    exact commits_of_oneBlock hidle hblocks (by omega) hc
  · obtain ⟨c, hc, rfl⟩ := serve_withdrawal hmsgid hserve hack
    have hblocks : request.stbank.blocks = [debitBlock request.stbank] := by
      simp [StBank.blocks, hmsgid]
    exact commits_of_oneBlock hidle hblocks (by omega) hc
  · obtain ⟨c, d, hc, hd, rfl, htarget⟩ := serve_transfer hmsgid hserve hack
    have hseen : (store.execute 0 c).seen 0 = store.committed ++ [c] := by
      rw [Store.seen, Store.committed_execute, Store.pending_execute, hidle, List.nil_append]
    rw [hseen, Tables.after_append] at hd
    rw [seen_of_idle hidle] at hc htarget
    refine ⟨[c, d], ?_, by simp [hidle], idle_commit fun i hi => ?_, fun _ => htarget⟩
    · simp only [StBank.blocks, hmsgid, Int.reduceEq, reduceIte, Tables.settle, hc]
      simp only [Tables.after_cons, Tables.after_nil] at hd
      simp [hd]
    · rw [Store.pending_execute_of_ne hi, Store.pending_execute_of_ne hi, hidle i]

end

end ChatRoom.Bank
