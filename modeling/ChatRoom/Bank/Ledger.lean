import ChatRoom.Bank.Sequential

/-!
# The bank as a ledger

What the bank is for, on the tables alone: a request changes them at once and is answered.  Requests
that are processed one after the other get what the ledger answers, although they run as
transactions of several statements.
-/

namespace ChatRoom.Bank

open CString Transactions Program

/-! ## The ledger -/

/-- The tables after a block. -/
def Tables.book (t : Tables) (block : Block) : Tables :=
  let t' := t.update block.update
  { t' with jylog := t'.jylog ++ [block.log] }

/-- The row of an account. -/
def Tables.customer (t : Tables) (userid : CStr) : Option Customer :=
  t.custominfo.find? (·.userid = userid)

/-- The state of the first operator with this password. -/
def Tables.operatorRsts (t : Tables) (oper_id password : CStr) : ℤ :=
  ((t.operator.find? fun r => r.oper_id = oper_id ∧ r.password = password).map Operator.rsts).getD 0

/-- An account that a transfer may go to. -/
def Tables.Open (t : Tables) (userid : CStr) : Prop :=
  ∃ c ∈ t.customer userid, c.rsts = 1 ∨ c.rsts = 2

instance (t : Tables) (userid : CStr) : Decidable (t.Open userid) :=
  inferInstanceAs (Decidable (∃ _ ∈ _, _))

/-- What a request does to the tables, and its answer. -/
def Tables.process (t : Tables) (stbank : StBank) : Tables × Option Reply :=
  if stbank.msgid = 1 then
    (t, some (if t.operatorRsts stbank.oper_id stbank.password = 1 then reply 0 "ok"
      else reply (-1) "操作员身份认证失败。"))
  else if stbank.msgid = 2 then
    if stbank.userid ∈ t.userids then (t, some (reply (-1) "系统故障。"))
    else (t.book (insertBlock stbank), some (reply 0 "ok"))
  else if stbank.msgid = 3 then
    (t, some (if ∃ c ∈ t.customer stbank.userid, c.password = stbank.password ∧ c.rsts = 1
      then reply 0 "ok" else reply (-1) "客户身份认证失败。"))
  else if stbank.msgid = 4 then (t.book (depositBlock stbank), some (reply 0 "ok"))
  else if stbank.msgid = 5 then
    if t.yeOf stbank.userid < stbank.je then (t, some (reply (-1) "余额不足。"))
    else (t.book (debitBlock stbank), some (reply 0 "ok"))
  else if stbank.msgid = 6 then
    if t.yeOf stbank.userid < stbank.je then (t, some (reply (-1) "余额不足。"))
    else if ¬ t.Open stbank.userid1 then (t, some (reply (-2) "转入帐户非法。"))
    else ((t.book (debitBlock stbank)).book (creditBlock stbank), some (reply 0 "ok"))
  else if stbank.msgid = 7 then
    (t, some (match t.customer stbank.userid with
      | some c => { reply 0 "ok" with ye := some c.ye }
      | none => reply (-1) "客户信息不存在。"))
  else if stbank.msgid = 8 then
    (t, some { reply 0 "ok" with
      vbank := (t.jylog.filter (·.userid = stbank.userid)).map fun r => (r.opertype, r.je) })
  else (t, none)

/-! ## What the statements see -/

namespace Tables

variable {t : Tables}

theorem headD_map_filter {α β : Type} (p : α → Bool) (f : α → β) (rows : List α) (b : β) :
    ((rows.filter p).map f).headD b = ((rows.find? p).map f).getD b := by
  rw [List.headD_eq_head?_getD, List.head?_map, List.head?_filter]

theorem headD_select_ye (t : Tables) (userid : CStr) :
    (t.select (.ye userid)).headD 0 = t.yeOf userid :=
  headD_map_filter _ _ _ _

theorem headD_select_operatorRsts (t : Tables) (oper_id password : CStr) :
    (t.select (.operatorRsts oper_id password)).headD 0 = t.operatorRsts oper_id password :=
  headD_map_filter _ _ _ _

/-- The key makes the row of an account the only one that a query for the account finds. -/
theorem find?_customer {userid : CStr} {p : Customer → Bool} {c : Customer}
    (hp : ∀ c, p c = true → c.userid = userid) :
    t.custominfo.find? p = some c ↔ c ∈ t.custominfo ∧ p c = true := by
  apply find?_eq_some_iff_of_unique
  intro x hx y hy hpx hpy
  exact List.inj_on_of_nodup_map t.keyed hx hy ((hp x hpx).trans (hp y hpy).symm)

theorem customer_eq_some_iff {userid : CStr} {c : Customer} :
    t.customer userid = some c ↔ c ∈ t.custominfo ∧ c.userid = userid := by
  rw [customer, find?_customer fun c hc => of_decide_eq_true hc, decide_eq_true_eq]

/-- A query for an account with a condition finds its row or none. -/
theorem find?_customer_and {userid : CStr} {q : Customer → Prop} [DecidablePred q]
    {c : Customer} :
    t.custominfo.find? (fun c => c.userid = userid ∧ q c) = some c ↔
      t.customer userid = some c ∧ q c := by
  have hkey : ∀ c : Customer, decide (c.userid = userid ∧ q c) = true → c.userid = userid :=
    fun c hc => (of_decide_eq_true hc).1
  rw [find?_customer hkey, decide_eq_true_eq, customer_eq_some_iff, and_assoc]

/-- What a query for the state of an account finds. -/
theorem getD_rsts_iff {userid : CStr} {found : Option Customer} {q : Customer → Prop} {P : ℤ → Prop}
    (hfound : ∀ c, found = some c ↔ t.customer userid = some c ∧ q c) (hP : ¬ P 0) :
    P ((found.map Customer.rsts).getD 0) ↔ ∃ c ∈ t.customer userid, q c ∧ P c.rsts := by
  rcases found with - | c
  · refine ⟨fun h => absurd h hP, ?_⟩
    rintro ⟨c, hc, hq, -⟩
    cases (hfound c).mpr ⟨hc, hq⟩
  · obtain ⟨hc, hq⟩ := (hfound c).mp rfl
    refine ⟨fun h => ⟨c, hc, hq, h⟩, ?_⟩
    rintro ⟨d, hd, -, h⟩
    rw [Option.mem_def, hc] at hd
    exact Option.some.inj hd ▸ h

/-- The state that the query for a customer with this password finds. -/
def customRsts (t : Tables) (userid password : CStr) : ℤ :=
  ((t.custominfo.find? fun c => c.userid = userid ∧ c.password = password).map
    Customer.rsts).getD 0

theorem headD_select_customRsts (t : Tables) (userid password : CStr) :
    (t.select (.customRsts userid password)).headD 0 = t.customRsts userid password :=
  headD_map_filter _ _ _ _

theorem customRsts_eq_one_iff (t : Tables) (userid password : CStr) :
    t.customRsts userid password = 1 ↔
      ∃ c ∈ t.customer userid, c.password = password ∧ c.rsts = 1 :=
  getD_rsts_iff (P := (· = 1)) (fun _ => find?_customer_and) (by decide)

theorem select_targetRsts (t : Tables) (userid : CStr) :
    ¬ ((t.select (.targetRsts userid)).headD 0 ≠ 1 ∧
        (t.select (.targetRsts userid)).headD 0 ≠ 2) ↔ t.Open userid := by
  rw [select, headD_map_filter, not_and_or, not_not, not_not]
  refine (getD_rsts_iff (P := fun rsts => rsts = 1 ∨ rsts = 2) (fun _ => find?_customer_and)
    (by decide)).trans ?_
  simp [Open]

theorem select_ye_cases (t : Tables) (userid : CStr) :
    (t.customer userid = none ∧ t.select (.ye userid) = []) ∨
      ∃ c rows, t.customer userid = some c ∧ t.select (.ye userid) = c.ye :: rows := by
  have hhead : ((t.custominfo.filter (·.userid = userid)).head?) = t.customer userid :=
    List.head?_filter
  rcases hrows : t.custominfo.filter (·.userid = userid) with - | ⟨c, rows⟩
  · exact .inl ⟨by rw [← hhead, hrows]; rfl, by rw [select, hrows]; rfl⟩
  · exact .inr ⟨c, rows.map Customer.ye, by rw [← hhead, hrows]; rfl, by rw [select, hrows]; rfl⟩

/-- A change of an account that does not exist changes nothing. -/
theorem addYe_of_not_mem {userid : CStr} (h : userid ∉ t.userids) (amount : ℚ) :
    t.addYe userid amount = t := by
  have hrows : t.custominfo.map (fun c =>
      if c.userid = userid then { c with ye := c.ye + amount } else c) = t.custominfo := by
    refine (List.map_congr_left fun c hc => ?_).trans (List.map_id _)
    exact if_neg fun heq => h (List.mem_map.mpr ⟨c, hc, heq⟩)
  obtain ⟨operator, custominfo, keyed, jylog⟩ := t
  simp only [addYe, mk.injEq, true_and, and_true]
  exact hrows

/-- A block that can be executed is booked. -/
theorem apply_of_executes {request : Request} {block : Block} {c : Change}
    (h : t.executes request block = some c) : t.apply c = t.book block := by
  rcases block with ⟨⟨userid, password⟩ | ⟨userid, amount⟩, log⟩
  · obtain ⟨-, heq⟩ := Option.ite_none_left_eq_some.mp h
    obtain rfl := Option.some.inj heq
    rfl
  · obtain rfl := Option.some.inj h
    by_cases hexists : userid ∈ t.userids
    · simp [apply, book, hexists]
    · simp [apply, book, hexists, update, addYe_of_not_mem]

end Tables

/-! ## A client alone -/

/-- The database while no other connection is in a transaction: a statement that cannot succeed
fails with the code 1. -/
def alone (t : Tables) (request : Request) (op : BankOp) (store : Store (Fin 5) Change) :
    Option (Store (Fin 5) Change × op.Res) :=
  (perform t request none op store).or (perform t request (some 1) op store)

/-- The first connection sees `t'` of the tables that were `t`, and the others do nothing. -/
structure Working (t : Tables) (store : Store (Fin 5) Change) (t' : Tables) : Prop where
  idle : ∀ i, i ≠ 0 → store.pending i = []
  seen : t.after (store.seen 0) = t'

/-- Nothing is pending, and the committed tables are `t'`. -/
structure Stands (t : Tables) (store : Store (Fin 5) Change) (t' : Tables) : Prop where
  idle : ∀ i, store.pending i = []
  committed : t.after store.committed = t'

section
variable {t t' : Tables} {request : Request} {store : Store (Fin 5) Change} {α : Type}

theorem Stands.working (h : Stands t store t') : Working t store t' where
  idle := fun i _ => h.idle i
  seen := by rw [seen_of_idle h.idle, h.committed]

theorem Stands.rollback (h : Stands t store t') : Stands t (store.rollback 0) t' where
  idle := fun i => by
    by_cases hi : i = 0
    · subst hi
      exact Store.pending_rollback
    · rw [Store.pending_rollback_of_ne hi]
      exact h.idle i
  committed := h.committed

theorem Working.commit (h : Working t store t') : Stands t (store.commit 0) t' where
  idle := idle_commit h.idle
  committed := h.seen

theorem Working.run_select (h : Working t store t') (query : Query)
    (next : Except ℕ+ (List query.Row) → BankProg α) :
    (Prog.call (.select 0 query) next).run (alone t request) store =
      (next (.ok (t'.select query))).run (alone t request) store := by
  rw [← h.seen]
  rfl

/-- A block is booked, unless it opens an account that exists. -/
theorem Working.run_execute (h : Working t store t') (block : Block)
    (next : Except ℕ+ Unit → BankProg α) :
    (t'.executes request block = none ∧
        (Prog.call (.execute 0 block) next).run (alone t request) store =
          (next (.error 1)).run (alone t request) store) ∨
      ∃ store', t'.executes request block ≠ none ∧ Working t store' (t'.book block) ∧
        (Prog.call (.execute 0 block) next).run (alone t request) store =
          (next (.ok ())).run (alone t request) store' := by
  rcases hc : t'.executes request block with - | c
  · refine .inl ⟨rfl, ?_⟩
    simp only [Prog.run_call, alone, perform, h.seen, hc, Option.none_or, Option.bind_some]
  · have hfree : ¬ c.Waits store 0 := by
      rintro ⟨row, -, j, hj, d, hd, -⟩
      rw [h.idle j hj] at hd
      exact absurd hd List.not_mem_nil
    refine .inr ⟨store.execute 0 c, Option.some_ne_none c, ⟨fun i hi => ?_, ?_⟩, ?_⟩
    · rw [Store.pending_execute_of_ne hi, h.idle i hi]
    · have hseen : (store.execute 0 c).seen 0 = store.seen 0 ++ [c] := by
        simp [Store.seen]
      rw [hseen, Tables.after_append, h.seen]
      exact Tables.apply_of_executes hc
    · simp only [Prog.run_call, alone, perform, h.seen, hc, if_neg hfree, Option.some_or,
        Option.bind_some]

/-- Run alone, a program comes to this outcome. -/
def Serves (t : Tables) (request : Request) (store : Store (Fin 5) Change)
    (program : BankProg (Option Reply)) (outcome : Tables × Option Reply) : Prop :=
  ∃ store', program.run (alone t request) store = some (store', outcome.2) ∧
    Stands t store' outcome.1

theorem Stands.serves_ret (h : Stands t store t') (answer : Option Reply) :
    Serves t request store (.ret answer) (t', answer) :=
  ⟨store, rfl, h⟩

theorem Stands.serves_rollback (h : Stands t store t') (answer : Option Reply) :
    Serves t request store ((Bank.rollback 0).bind fun _ => .ret answer) (t', answer) :=
  ⟨store.rollback 0, rfl, h.rollback⟩

theorem Working.serves_commit (h : Working t store t') (answer : Option Reply) :
    Serves t request store ((Bank.commit 0).bind fun _ => .ret answer) (t', answer) :=
  ⟨store.commit 0, rfl, h.commit⟩

/-- A program that selects first. -/
theorem Stands.serves_select (h : Stands t store t') {query : Query}
    {next : Except ℕ+ (List query.Row) → BankProg (Option Reply)} {outcome : Tables × Option Reply}
    (hnext : Serves t request store (next (.ok (t'.select query))) outcome) :
    Serves t request store (.call (.select 0 query) next) outcome := by
  obtain ⟨store', hrun, hstands⟩ := hnext
  exact ⟨store', (h.working.run_select query next).trans hrun, hstands⟩

/-- A program that changes a balance first. -/
theorem Working.serves_addYe (h : Working t store t') {block : Block} {userid : CStr} {amount : ℚ}
    (hupdate : block.update = .addYe userid amount)
    {next : Except ℕ+ Unit → BankProg (Option Reply)} {outcome : Tables × Option Reply}
    (hnext : ∀ store', Working t store' (t'.book block) →
      Serves t request store' (next (.ok ())) outcome) :
    Serves t request store (.call (.execute 0 block) next) outcome := by
  rcases h.run_execute block next with ⟨hnone, -⟩ | ⟨store', -, hworking, hrun⟩
  · simp [Tables.executes, hupdate] at hnone
  · obtain ⟨store'', hrun', hstands⟩ := hnext store' hworking
    exact ⟨store'', hrun.trans hrun', hstands⟩

/-- A program that opens an account first. -/
theorem Stands.serves_insert (h : Stands t store t') {block : Block} {userid password : CStr}
    (hupdate : block.update = .insertCustom userid password)
    {next : Except ℕ+ Unit → BankProg (Option Reply)} {refused booked : Tables × Option Reply}
    (hrefused : Serves t request store (next (.error 1)) refused)
    (hbooked : ∀ store', Working t store' (t'.book block) →
      Serves t request store' (next (.ok ())) booked) :
    Serves t request store (.call (.execute 0 block) next)
      (if userid ∈ t'.userids then refused else booked) := by
  have hexecutes : t'.executes request block = none ↔ userid ∈ t'.userids := by
    simp [Tables.executes, hupdate]
  rcases h.working.run_execute block next with ⟨hnone, hrun⟩ | ⟨store', hsome, hworking, hrun⟩
  · obtain ⟨store', hrun', hstands⟩ := hrefused
    rw [if_pos (hexecutes.mp hnone)]
    exact ⟨store', hrun.trans hrun', hstands⟩
  · obtain ⟨store'', hrun', hstands⟩ := hbooked store' hworking
    rw [if_neg (mt hexecutes.mpr hsome)]
    exact ⟨store'', hrun.trans hrun', hstands⟩

variable {stbank : StBank}

theorem serves_msgid_5 (h : Stands t store t') (hmsgid : stbank.msgid = 5) :
    Serves t request store (procmessage (some 0) stbank) (t'.process stbank) := by
  have hye := Tables.headD_select_ye t' stbank.userid
  simp only [procmessage, Tables.process, hmsgid, msgid_5, select, Int.reduceEq, reduceIte,
    Prog.bind_eq, Prog.pure_eq, Prog.request_bind, Prog.call_bind]
  refine h.serves_select ?_
  simp only [hye]
  by_cases hpoor : t'.yeOf stbank.userid < stbank.je
  · rw [if_pos hpoor, if_pos hpoor]
    exact h.serves_rollback _
  · rw [if_neg hpoor, if_neg hpoor, Prog.bind_assoc]
    exact h.working.serves_addYe rfl fun store' hworking => hworking.serves_commit _

theorem serves_msgid_6 (h : Stands t store t') (hmsgid : stbank.msgid = 6) :
    Serves t request store (procmessage (some 0) stbank) (t'.process stbank) := by
  have hye := Tables.headD_select_ye t' stbank.userid
  have hopen := Tables.select_targetRsts t' stbank.userid1
  simp only [procmessage, Tables.process, hmsgid, msgid_6, select, Int.reduceEq, reduceIte,
    Prog.bind_eq, Prog.pure_eq, Prog.request_bind, Prog.call_bind]
  refine h.serves_select ?_
  simp only [hye]
  by_cases hpoor : t'.yeOf stbank.userid < stbank.je
  · rw [if_pos hpoor, if_pos hpoor]
    exact h.serves_rollback _
  rw [if_neg hpoor, if_neg hpoor]
  refine h.serves_select ?_
  by_cases htarget : t'.Open stbank.userid1
  · rw [if_neg (not_not.mpr htarget)]
    simp only [if_neg (hopen.mpr htarget)]
    refine h.working.serves_addYe rfl fun store' hworking => ?_
    simp only [Prog.bind_assoc]
    exact hworking.serves_addYe rfl fun store'' hworking' => hworking'.serves_commit _
  · rw [if_pos htarget]
    simp only [if_pos (not_not.mp (mt hopen.mp htarget))]
    exact h.serves_rollback _

/-- Every request that is served alone has the effect and the answer of the ledger. -/
theorem serves_process (request : Request) (h : Stands t store t') (stbank : StBank) :
    Serves t request store (procmessage (some 0) stbank) (t'.process stbank) := by
  by_cases h5 : stbank.msgid = 5
  · exact serves_msgid_5 h h5
  by_cases h6 : stbank.msgid = 6
  · exact serves_msgid_6 h h6
  simp only [procmessage, Tables.process, if_neg h5, if_neg h6, msgid_1, msgid_2, msgid_3, msgid_4,
    msgid_7, msgid_8, select, Prog.bind_eq, Prog.pure_eq, Prog.request_bind, Prog.call_bind]
  by_cases h1 : stbank.msgid = 1
  · rw [if_pos h1, if_pos h1]
    have hrsts := Tables.headD_select_operatorRsts t' stbank.oper_id stbank.password
    refine h.serves_select ?_
    simp only [fetched, hrsts]
    by_cases hoperator : t'.operatorRsts stbank.oper_id stbank.password = 1
    · simp only [if_pos hoperator]
      exact h.serves_ret _
    · simp only [if_neg hoperator]
      exact h.serves_ret _
  rw [if_neg h1, if_neg h1]
  by_cases h2 : stbank.msgid = 2
  · rw [if_pos h2, if_pos h2, Prog.bind_assoc]
    exact h.serves_insert rfl (h.serves_rollback _) fun store' hworking =>
      hworking.serves_commit _
  rw [if_neg h2, if_neg h2]
  by_cases h3 : stbank.msgid = 3
  · rw [if_pos h3, if_pos h3]
    have hrsts := Tables.headD_select_customRsts t' stbank.userid stbank.password
    refine h.serves_select ?_
    simp only [fetched, hrsts, ← Tables.customRsts_eq_one_iff]
    by_cases hcustomer : t'.customRsts stbank.userid stbank.password = 1
    · simp only [if_pos hcustomer]
      exact h.serves_ret _
    · simp only [if_neg hcustomer]
      exact h.serves_ret _
  rw [if_neg h3, if_neg h3]
  by_cases h4 : stbank.msgid = 4
  · rw [if_pos h4, if_pos h4, Prog.bind_assoc]
    exact h.working.serves_addYe rfl fun store' hworking => hworking.serves_commit _
  rw [if_neg h4, if_neg h4]
  by_cases h7 : stbank.msgid = 7
  · rw [if_pos h7, if_pos h7]
    refine h.serves_select ?_
    rcases Tables.select_ye_cases t' stbank.userid with ⟨hnone, hrows⟩ | ⟨c, rows, hc, hrows⟩
    · simp only [hnone, hrows]
      exact h.serves_ret _
    · simp only [hc, hrows]
      exact h.serves_ret _
  rw [if_neg h7, if_neg h7]
  by_cases h8 : stbank.msgid = 8
  · rw [if_pos h8, if_pos h8]
    exact h.serves_select (h.serves_ret _)
  rw [if_neg h8, if_neg h8]
  exact h.serves_ret none

end

/-! ## Requests one after the other -/

/-- The statements of requests that are processed one after the other, and their answers; the first
one gets the number `n`. -/
def processAll (t : Tables) :
    ℕ → List StBank → Store (Fin 5) Change → Option (Store (Fin 5) Change × List (Option Reply))
  | _, [], store => some (store, [])
  | n, stbank :: requests, store => do
      let (store, answer) ← (procmessage (some 0) stbank).run (alone t ⟨n, stbank⟩) store
      let (store, answers) ← processAll t (n + 1) requests store
      return (store, answer :: answers)

/-- The tables after requests, and the answers of the ledger. -/
def Tables.processAll (t : Tables) : List StBank → Tables × List (Option Reply)
  | [] => (t, [])
  | stbank :: requests =>
      let outcome := t.process stbank
      let rest := outcome.1.processAll requests
      (rest.1, outcome.2 :: rest.2)

theorem Stands.processAll {t t' : Tables} {store : Store (Fin 5) Change} (h : Stands t store t')
    (n : ℕ) (requests : List StBank) :
    ∃ store', Bank.processAll t n requests store = some (store', (t'.processAll requests).2) ∧
      Stands t store' (t'.processAll requests).1 := by
  induction requests generalizing n store t' with
  | nil => exact ⟨store, rfl, h⟩
  | cons stbank requests ih =>
      obtain ⟨store₁, hrun, hstands⟩ := serves_process ⟨n, stbank⟩ h stbank
      obtain ⟨store', hrest, hstands'⟩ := ih hstands (n + 1)
      refine ⟨store', ?_, hstands'⟩
      rw [Bank.processAll]
      simp only [hrun, Option.bind_eq_bind, Option.bind_some, hrest]
      rfl

/-- Whatever requests are processed one after the other, they get the answers of the ledger, and
leave its tables committed and nothing pending. -/
theorem processAll_ledger (t : Tables) (requests : List StBank) :
    ∃ store, processAll t 0 requests .start = some (store, (t.processAll requests).2) ∧
      Stands t store (t.processAll requests).1 :=
  Stands.processAll ⟨fun _ => rfl, rfl⟩ 0 requests

end ChatRoom.Bank
