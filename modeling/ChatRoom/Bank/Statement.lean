import ChatRoom.Bank.Sequential
import Mathlib.Tactic.Linarith
import Mathlib.Tactic.Ring

/-!
# Statements and balances

The statement of an account should tell its balance.  Each row can be read back: an opening sets the
balance to 0, a deposit adds and a withdrawal takes.  A transfer writes the row of a withdrawal for
both of its accounts, so that the statement of the receiver says twice its amount too little.
-/

namespace ChatRoom.Bank

open CString Transactions Program

/-! ## The queries -/

/-- The answer of `msgid_8` for an account. -/
def statement (t : Tables) (store : Store (Fin 5) Change) (userid : CStr) :
    Option (ℤ × List (ℤ × ℚ)) :=
  let stbank : StBank := ⟨8, lit "", lit "", userid, 0, lit ""⟩
  ((msgid_8 0 stbank).run (perform t ⟨0, stbank⟩ none) store).map Prod.snd

/-- The answer of `msgid_7` for an account. -/
def balance (t : Tables) (store : Store (Fin 5) Change) (userid : CStr) : Option (ℤ × ℚ) :=
  let stbank : StBank := ⟨7, lit "", lit "", userid, 0, lit ""⟩
  ((msgid_7 0 stbank).run (perform t ⟨0, stbank⟩ none) store).map Prod.snd

theorem statement_eq (t : Tables) (store : Store (Fin 5) Change) (userid : CStr) :
    statement t store userid = some (0, (t.after (store.seen 0)).select (.jylog userid)) := rfl

/-- An account has one row with a balance. -/
theorem Tables.select_ye {t : Tables} {userid : CStr} (h : userid ∈ t.userids) :
    ∃ rest, t.select (.ye userid) = t.yeOf userid :: rest := by
  obtain ⟨c, hc, rfl⟩ := List.mem_map.mp h
  have hrow : c ∈ t.custominfo.filter (·.userid = c.userid) :=
    List.mem_filter.mpr ⟨hc, decide_eq_true rfl⟩
  rcases hrows : t.custominfo.filter (·.userid = c.userid) with - | ⟨d, rows⟩
  · rw [hrows] at hrow
    exact absurd hrow List.not_mem_nil
  · have hd := List.mem_filter.mp (hrows ▸ List.mem_cons_self)
    have hye : t.yeOf c.userid = d.ye := by
      rw [← yeOf_of_mem hd.1, of_decide_eq_true hd.2]
    exact ⟨rows.map Customer.ye, by rw [hye, select, hrows, List.map_cons]⟩

theorem balance_eq {t : Tables} {store : Store (Fin 5) Change} {userid : CStr}
    (h : userid ∈ (t.after (store.seen 0)).userids) :
    balance t store userid = some (0, (t.after (store.seen 0)).yeOf userid) := by
  obtain ⟨rest, hrows⟩ := Tables.select_ye h
  simp only [balance, msgid_7, select, Prog.bind_eq, Prog.request_bind, Prog.run_call, perform,
    Option.bind_some, hrows]
  rfl

/-! ## What a statement says -/

/-- The balance after one more row: 1 opens the account, 2 is a deposit, 3 is a withdrawal. -/
def nextBalance (ye : ℚ) (row : ℤ × ℚ) : ℚ :=
  if row.1 = 1 then 0 else if row.1 = 2 then ye + row.2 else ye - row.2

/-- The balance that the rows tell. -/
def stated (rows : List (ℤ × ℚ)) : ℚ := rows.foldl nextBalance 0

/-- The sum of the transfers into an account. -/
def received (requests : List StBank) (userid : CStr) : ℚ :=
  ((requests.filter fun r => r.msgid = 6 ∧ r.userid1 = userid).map StBank.je).sum

theorem received_cons (stbank : StBank) (requests : List StBank) (userid : CStr) :
    received (stbank :: requests) userid =
      received [stbank] userid + received requests userid := by
  simp only [received, List.filter_cons, List.filter_nil]
  split <;> simp

theorem received_singleton (stbank : StBank) (userid : CStr) :
    received [stbank] userid =
      if stbank.msgid = 6 ∧ stbank.userid1 = userid then stbank.je else 0 := by
  simp only [received, List.filter_cons, List.filter_nil, decide_eq_true_eq]
  split <;> simp

/-- The balance is what the statement says and twice the transfers received; before it is opened
an account receives none. -/
structure Explained (t : Tables) (userid : CStr) (transfers : ℚ) : Prop where
  balance : userid ∈ t.userids →
    t.yeOf userid = stated (t.select (.jylog userid)) + 2 * transfers
  unopened : userid ∉ t.userids → transfers = 0

theorem explained_empty (userid : CStr) : Explained .empty userid 0 :=
  ⟨fun h => absurd h List.not_mem_nil, fun _ => rfl⟩

section
variable {t : Tables} {request : Request} {block : Block} {c : Change} {userid : CStr}
  {transfers : ℚ}

theorem select_jylog_apply (t : Tables) (c : Change) (userid : CStr) :
    (t.apply c).select (.jylog userid) = t.select (.jylog userid) ++
      if c.block.log.userid = userid then [(c.block.log.opertype, c.block.log.je)] else [] := by
  simp only [Tables.select, Tables.jylog_apply, List.filter_append, List.map_append]
  congr 1
  by_cases h : c.block.log.userid = userid <;> simp [h]

theorem stated_append (rows : List (ℤ × ℚ)) (row : ℤ × ℚ) :
    stated (rows ++ [row]) = nextBalance (stated rows) row := by
  simp [stated]

/-- An update of an account and its row. -/
theorem Explained.addYe {target : CStr} {amount : ℚ} (h : Explained t userid transfers) (gain : ℚ)
    (hc : t.executes request block = some c) (hupdate : block.update = .addYe target amount)
    (hlog : block.log.userid = target)
    (hstated : ∀ ye, nextBalance ye (block.log.opertype, block.log.je) + 2 * gain = ye + amount)
    (hgain : target ∉ t.userids → gain = 0) :
    Explained (t.apply c) userid (transfers + if target = userid then gain else 0) := by
  have hblock := (Tables.executes_block hc).1
  have hye := (Tables.apply_of_matches (Tables.matches_singleton_of_executes hc) userid).1
  have hopened : (t.apply c).userids = t.userids :=
    Tables.userids_apply_addYe (hblock ▸ hupdate)
  refine ⟨fun hopen => ?_, fun hopen => ?_⟩
  · rw [hopened] at hopen
    rw [hye, select_jylog_apply, h.balance hopen, hblock, hlog]
    by_cases htarget : target = userid
    · subst htarget
      have hadds := hstated (stated (t.select (.jylog target)))
      rw [if_pos rfl, if_pos rfl, stated_append, Tables.part_self_of_executes hc hupdate hopen]
      linarith
    · have hpart : c.part userid = 0 := by
        refine Change.part_of_ne ?_
        rw [hblock, hupdate]
        exact htarget
      rw [hpart, if_neg htarget, if_neg htarget, List.append_nil, add_zero, add_zero]
  · rw [hopened] at hopen
    rw [h.unopened hopen, zero_add]
    by_cases htarget : target = userid
    · rw [if_pos htarget]
      exact hgain (htarget ▸ hopen)
    · exact if_neg htarget

/-- An opening starts at 0. -/
theorem Explained.insertCustom {password : CStr} {target : CStr} (h : Explained t userid transfers)
    (hc : t.executes request block = some c)
    (hupdate : block.update = .insertCustom target password)
    (hlog : block.log.userid = target) (htype : block.log.opertype = 1) :
    Explained (t.apply c) userid transfers := by
  have hblock := (Tables.executes_block hc).1
  have hye := (Tables.apply_of_matches (Tables.matches_singleton_of_executes hc) userid).1
  have hpart : c.part userid = 0 := by
    obtain hzero | ⟨amount, hadd, -⟩ := Tables.part_of_executes hc userid
    · exact hzero
    · rw [hupdate] at hadd
      cases hadd
  simp only [Tables.executes, hupdate, Option.ite_none_left_eq_some, Option.some.injEq] at hc
  obtain ⟨hnew, hc⟩ := hc
  have hopened : userid ∈ (t.apply c).userids ↔ userid ∈ t.userids ∨ userid = target :=
    Tables.mem_userids_apply_insertCustom (hblock ▸ hupdate) (hc ▸ rfl)
  refine ⟨fun hopen => ?_, fun hopen => h.unopened fun hold => hopen (hopened.mpr (.inl hold))⟩
  rw [hye, hpart, add_zero, select_jylog_apply, hblock, hlog]
  by_cases hself : target = userid
  · subst hself
    rw [if_pos rfl, stated_append, Tables.yeOf_eq_zero hnew, h.unopened hnew]
    simp [nextBalance, htype]
  · have hold : userid ∈ t.userids := (hopened.mp hopen).resolve_right fun heq => hself heq.symm
    rw [if_neg hself, List.append_nil]
    exact h.balance hold

/-- All blocks of a request. -/
theorem Explained.settle {changes : List Change} (h : Explained t userid transfers)
    (hchanges : t.settle request request.stbank.blocks = some changes)
    (htarget : request.stbank.msgid = 6 → request.stbank.userid1 ∈ t.userids) :
    Explained (t.after changes) userid (transfers + received [request.stbank] userid) := by
  obtain ⟨id, stbank⟩ := request
  dsimp only at hchanges htarget ⊢
  by_cases h6 : stbank.msgid = 6
  · simp only [StBank.blocks, h6, Int.reduceEq, reduceIte] at hchanges
    obtain ⟨c, rest, hc, hrest, rfl⟩ := Tables.settle_cons hchanges
    obtain ⟨d, hd, rfl⟩ := Tables.settle_singleton_iff.mp hrest
    have hdebit := h.addYe 0 hc rfl rfl (fun ye => by simp [nextBalance, debitBlock]; ring)
      fun _ => rfl
    rw [ite_self, add_zero] at hdebit
    have hcredit := hdebit.addYe stbank.je hd rfl rfl
      (fun ye => by simp [nextBalance, creditBlock]; ring) fun hnone => ?_
    · rw [received_singleton]
      simpa only [h6, true_and, Tables.after_cons, Tables.after_nil] using hcredit
    · exact absurd (Tables.userids_subset_apply t c (htarget h6)) hnone
  rw [received_singleton, if_neg fun hboth => h6 hboth.1, add_zero]
  by_cases h2 : stbank.msgid = 2
  · simp only [StBank.blocks, h2, Int.reduceEq, reduceIte] at hchanges
    obtain ⟨c, hc, rfl⟩ := Tables.settle_singleton_iff.mp hchanges
    exact h.insertCustom hc rfl rfl rfl
  by_cases h4 : stbank.msgid = 4
  · simp only [StBank.blocks, h4, Int.reduceEq, reduceIte] at hchanges
    obtain ⟨c, hc, rfl⟩ := Tables.settle_singleton_iff.mp hchanges
    have hdeposit := h.addYe 0 hc rfl rfl (fun ye => by simp [nextBalance, depositBlock])
      fun _ => rfl
    rwa [ite_self, add_zero] at hdeposit
  by_cases h5 : stbank.msgid = 5
  · simp only [StBank.blocks, h5, Int.reduceEq, reduceIte] at hchanges
    obtain ⟨c, hc, rfl⟩ := Tables.settle_singleton_iff.mp hchanges
    have hdebit := h.addYe 0 hc rfl rfl (fun ye => by simp [nextBalance, debitBlock]; ring)
      fun _ => rfl
    rwa [ite_self, add_zero] at hdebit
  · simp only [StBank.blocks, h2, h4, h5, h6, reduceIte] at hchanges
    obtain rfl := Option.some.inj hchanges
    exact h

end

/-! ## Sequential runs -/

/-- The requests of a run explain the balances that they leave. -/
theorem explained_serveAll {t : Tables} {n : ℕ} {requests : List StBank}
    {store store' : Store (Fin 5) Change} {userid : CStr} {transfers : ℚ}
    (hserve : serveAll t n requests store = some store') (hidle : ∀ i, store.pending i = [])
    (h : Explained (t.after store.committed) userid transfers) :
    (∀ i, store'.pending i = []) ∧
      Explained (t.after store'.committed) userid (transfers + received requests userid) := by
  induction requests generalizing n store transfers with
  | nil =>
      obtain rfl := Option.some.inj hserve
      exact ⟨hidle, by simpa [received] using h⟩
  | cons stbank requests ih =>
      obtain ⟨⟨store₁, answer⟩, hfirst, hrest⟩ := Option.bind_eq_some_iff.mp hserve
      obtain ⟨⟨hchanges, hack⟩, hrest⟩ := Option.ite_none_right_eq_some.mp hrest
      obtain ⟨changes, hsettle, hcommitted, hidle₁, htarget⟩ :=
        serve_acknowledged hidle hchanges hfirst hack
      have hfirst' := h.settle hsettle htarget
      rw [← Tables.after_append, ← hcommitted] at hfirst'
      have hall := ih hrest hidle₁ hfirst'
      rwa [add_assoc, ← received_cons] at hall

/-- For two runs from an empty bank, equal statements of an account mean equal balances exactly if
they mean that the account has received the same by transfers. -/
theorem balance_of_statement {requests₁ requests₂ : List StBank}
    {store₁ store₂ : Store (Fin 5) Change} {userid : CStr}
    (h₁ : serveAll .empty 0 requests₁ .start = some store₁)
    (h₂ : serveAll .empty 0 requests₂ .start = some store₂)
    (hexists₁ : userid ∈ (Tables.empty.after store₁.committed).userids)
    (hexists₂ : userid ∈ (Tables.empty.after store₂.committed).userids) :
    (statement .empty store₁ userid = statement .empty store₂ userid →
        balance .empty store₁ userid = balance .empty store₂ userid) ↔
      (statement .empty store₁ userid = statement .empty store₂ userid →
        received requests₁ userid = received requests₂ userid) := by
  have hyeOf : ∀ {requests store}, serveAll .empty 0 requests .start = some store →
      userid ∈ (Tables.empty.after store.committed).userids →
        ∃ rows, statement .empty store userid = some (0, rows) ∧
          balance .empty store userid = some (0, stated rows + 2 * received requests userid) := by
    intro requests store hserve hexists
    obtain ⟨hidle, hexplained⟩ := explained_serveAll hserve (fun _ => rfl) (explained_empty userid)
    rw [zero_add] at hexplained
    refine ⟨_, statement_eq .empty store userid, ?_⟩
    rw [← seen_of_idle hidle 0] at hexists hexplained
    rw [balance_eq hexists, hexplained.balance hexists]
  obtain ⟨rows₁, hstatement₁, hbalance₁⟩ := hyeOf h₁ hexists₁
  obtain ⟨rows₂, hstatement₂, hbalance₂⟩ := hyeOf h₂ hexists₂
  refine forall_congr' fun hsame => ?_
  rw [hstatement₁, hstatement₂, Option.some.injEq, Prod.mk.injEq] at hsame
  rw [hbalance₁, hbalance₂, hsame.2]
  simp

section Examples

def opening (userid : CStr) : StBank := ⟨2, lit "o", lit "", userid, 0, lit ""⟩

/-- Client `a` deposits 100 and withdraws 50. -/
def withdrawing : List StBank := [opening (lit "a"), deposit 100, withdrawal 50]

/-- Client `a` deposits 100 and receives 50 from client `b`. -/
def receiving : List StBank :=
  [opening (lit "a"), deposit 100, opening (lit "b"), ⟨4, lit "o", lit "", lit "b", 100, lit ""⟩,
    ⟨6, lit "o", lit "", lit "b", 50, lit "a"⟩]

/-- The two runs, and whether the property fails for `a` in them. -/
theorem runs_differ :
    ∃ store₁ store₂, serveAll .empty 0 withdrawing .start = some store₁ ∧
      serveAll .empty 0 receiving .start = some store₂ ∧
        (lit "a" ∈ (Tables.empty.after store₁.committed).userids ∧
          lit "a" ∈ (Tables.empty.after store₂.committed).userids) ∧
        statement .empty store₁ (lit "a") = statement .empty store₂ (lit "a") ∧
          balance .empty store₁ (lit "a") ≠ balance .empty store₂ (lit "a") := by
  have hruns : ((serveAll .empty 0 withdrawing .start).bind fun store₁ =>
      (serveAll .empty 0 receiving .start).map fun store₂ =>
        decide ((lit "a" ∈ (Tables.empty.after store₁.committed).userids ∧
            lit "a" ∈ (Tables.empty.after store₂.committed).userids) ∧
          statement .empty store₁ (lit "a") = statement .empty store₂ (lit "a") ∧
            balance .empty store₁ (lit "a") ≠ balance .empty store₂ (lit "a"))) = some true := by
    decide +kernel
  obtain ⟨store₁, h₁, hrest⟩ := Option.bind_eq_some_iff.mp hruns
  obtain ⟨store₂, h₂, hdiffer⟩ := Option.map_eq_some_iff.mp hrest
  exact ⟨store₁, store₂, h₁, h₂, of_decide_eq_true hdiffer⟩

theorem balance_of_statement_runs :
    ∃ store₁ store₂, serveAll .empty 0 withdrawing .start = some store₁ ∧
      serveAll .empty 0 receiving .start = some store₂ ∧
        lit "a" ∈ (Tables.empty.after store₁.committed).userids ∧
        lit "a" ∈ (Tables.empty.after store₂.committed).userids ∧
      ((statement .empty store₁ (lit "a") = statement .empty store₂ (lit "a") →
          balance .empty store₁ (lit "a") = balance .empty store₂ (lit "a")) ↔
        (statement .empty store₁ (lit "a") = statement .empty store₂ (lit "a") →
          received withdrawing (lit "a") = received receiving (lit "a"))) := by
  obtain ⟨store₁, store₂, h₁, h₂, hexists, -⟩ := runs_differ
  exact ⟨store₁, store₂, h₁, h₂, hexists.1, hexists.2,
    balance_of_statement h₁ h₂ hexists.1 hexists.2⟩

/-- The statements are the same, the balances are 50 and 150. -/
theorem not_balance_of_statement :
    ¬ ∀ (requests₁ requests₂ : List StBank) (store₁ store₂ : Store (Fin 5) Change) (userid : CStr),
      serveAll .empty 0 requests₁ .start = some store₁ →
        serveAll .empty 0 requests₂ .start = some store₂ →
          userid ∈ (Tables.empty.after store₁.committed).userids →
            userid ∈ (Tables.empty.after store₂.committed).userids →
              statement .empty store₁ userid = statement .empty store₂ userid →
                balance .empty store₁ userid = balance .empty store₂ userid := by
  intro h
  obtain ⟨store₁, store₂, h₁, h₂, hexists, hsame, hdiffer⟩ := runs_differ
  exact hdiffer (h withdrawing receiving store₁ store₂ _ h₁ h₂ hexists.1 hexists.2 hsame)

end Examples

end ChatRoom.Bank
