import ChatRoom.Bank.Requests

/-!
# What a request does to its connection

A request that changes the tables executes its blocks one after the other, and then commits all of
them or rolls back.  The outline of `procmessage` says so of the program, whatever the database
answers and whichever connection the commit names.
-/

namespace ChatRoom.Bank

open Program

/-- How far a request is with its transaction. -/
inductive Progress where
  | working (blocks : List Block)
  | committed
  | rolledBack

/-- The types of the requests that change the tables. -/
def StBank.Changes (stbank : StBank) : Prop := stbank.msgid ∈ [2, 4, 5, 6]

instance (stbank : StBank) : Decidable stbank.Changes :=
  inferInstanceAs (Decidable (_ ∈ _))

/-- The updates and log rows that a request stands for. -/
def StBank.blocks (stbank : StBank) : List Block :=
  if stbank.msgid = 2 then [insertBlock stbank]
  else if stbank.msgid = 4 then [depositBlock stbank]
  else if stbank.msgid = 5 then [debitBlock stbank]
  else if stbank.msgid = 6 then [debitBlock stbank, creditBlock stbank]
  else []

/-- A request executes blocks on its own connection, commits only all of them, and touches nothing
after the end of its transaction. -/
def discipline (pconn : Fin 5) (stbank : StBank) : Discipline BankOp BankOp.Res Progress where
  allowed
    | .working _, .select _ _ => True
    | .working _, .execute conn _ => conn = pconn
    | .working blocks, .commit _ => blocks = stbank.blocks
    | .working _, .rollback conn => conn = pconn
    | _, _ => False
  next
    | .working blocks, .execute _ block, .ok _ => .working (blocks ++ [block])
    | g, .execute _ _, _ => g
    | g, .select _ _, _ => g
    | _, .commit _, _ => .committed
    | _, .rollback _, _ => .rolledBack

/-- The answer is 0. -/
def Acknowledged (answer : Option Reply) : Prop := ∃ r, answer = some r ∧ r.retno = 0

/-- What holds at the end: nothing is pending, and a request that changes the tables is
acknowledged only after its commit. -/
def Settled (stbank : StBank) : Progress → Option Reply → Prop
  | .working blocks, answer => blocks = [] ∧ ¬ (stbank.Changes ∧ Acknowledged answer)
  | .committed, _ => True
  | .rolledBack, answer => ¬ Acknowledged answer

/-- A function has executed the blocks and returns 0, or it returns a code of a failure. -/
def Worked (blocks : List Block) (codes : List ℤ) (g : Progress) (iret : ℤ) : Prop :=
  (iret = 0 ∧ g = .working blocks) ∨
    ((iret ∈ codes ∨ 0 < iret) ∧ iret ≠ 0 ∧ ∃ done, g = .working done)

section
variable {pconn : Fin 5} {stbank : StBank}

theorem worked_rcOf_ok (blocks : List Block) (codes : List ℤ) (u : Unit) :
    Worked blocks codes (.working blocks) (rcOf (.ok u)) :=
  .inl ⟨rfl, rfl⟩

theorem worked_code (blocks done : List Block) (codes : List ℤ) (code : ℕ+) :
    Worked blocks codes (.working done) ((code : ℕ) : ℤ) :=
  .inr ⟨.inr (by exact_mod_cast code.pos), by exact_mod_cast code.pos.ne', done, rfl⟩

/-- A function that only reads. -/
theorem outline_select {α : Type} {query : Query} (f : Except ℕ+ (List query.Row) → α)
    (done : List Block) :
    Outline (discipline pconn stbank) (fun g _ => g = .working done)
      ((select pconn query).bind fun rows => .ret (f rows)) (.working done) :=
  ⟨trivial, fun _ => rfl⟩

/-- A function that ends with a block. -/
theorem outline_execute (done : List Block) (block : Block) (codes : List ℤ) :
    Outline (discipline pconn stbank) (Worked (done ++ [block]) codes)
      ((execute pconn block).bind fun executed => .ret (rcOf executed)) (.working done) := by
  refine ⟨rfl, fun executed => ?_⟩
  rcases executed with code | u
  · exact worked_code _ _ codes code
  · exact worked_rcOf_ok _ codes u

theorem outline_msgid_5 :
    Outline (discipline pconn stbank) (Worked [debitBlock stbank] [-1]) (msgid_5 pconn stbank)
      (.working []) := by
  simp only [msgid_5, select, Prog.bind_eq, Prog.pure_eq, Prog.request_bind]
  refine ⟨trivial, fun rows => ?_⟩
  rcases rows with code | rows
  · exact worked_code _ _ _ code
  · dsimp only
    split
    · exact .inr ⟨.inl (List.mem_singleton_self _), by decide, [], rfl⟩
    · exact outline_execute [] (debitBlock stbank) [-1]

theorem outline_msgid_6 :
    Outline (discipline pconn stbank) (Worked [debitBlock stbank, creditBlock stbank] [-1, -2])
      (msgid_6 pconn stbank) (.working []) := by
  simp only [msgid_6, select, Prog.bind_eq, Prog.pure_eq, Prog.request_bind]
  refine ⟨trivial, fun rows => ?_⟩
  rcases rows with code | rows
  · exact worked_code _ _ _ code
  · dsimp only
    split
    · exact .inr ⟨.inl (by decide), by decide, [], rfl⟩
    · refine ⟨trivial, fun targets => ?_⟩
      rcases targets with code | targets
      · exact worked_code _ _ _ code
      · dsimp only
        split
        · exact .inr ⟨.inl (by decide), by decide, [], rfl⟩
        · refine ⟨rfl, fun executed => ?_⟩
          rcases executed with code | u
          · exact worked_code _ _ _ code
          · exact outline_execute [debitBlock stbank] (creditBlock stbank) [-1, -2]

theorem outline_msgid_7 (done : List Block) :
    Outline (discipline pconn stbank) (fun g _ => g = .working done) (msgid_7 pconn stbank)
      (.working done) := by
  refine ⟨trivial, fun rows => ?_⟩
  rcases rows with code | - | ⟨ye, rows⟩ <;> rfl

theorem outline_msgid_8 (done : List Block) :
    Outline (discipline pconn stbank) (fun g _ => g = .working done) (msgid_8 pconn stbank)
      (.working done) := by
  refine ⟨trivial, fun rows => ?_⟩
  rcases rows with code | rows <;> rfl

/-! ## The end of a request -/

theorem not_acknowledged {retno : ℤ} (h : retno ≠ 0) (retmesg : String) :
    ¬ Acknowledged (some (reply retno retmesg)) := by
  rintro ⟨r, hr, hzero⟩
  rw [← Option.some.inj hr] at hzero
  exact h hzero

/-- A commit of all blocks, and the answer. -/
theorem outline_commit {blocks : List Block} (hblocks : blocks = stbank.blocks) (conn : Fin 5)
    (answer : Option Reply) :
    Outline (discipline pconn stbank) (Settled stbank)
      ((commit conn).bind fun _ => .ret answer) (.working blocks) :=
  ⟨hblocks, fun _ => trivial⟩

/-- A rollback, and a refusal. -/
theorem outline_rollback (blocks : List Block) {retno : ℤ} (h : retno ≠ 0) (retmesg : String) :
    Outline (discipline pconn stbank) (Settled stbank)
      ((rollback pconn).bind fun _ => .ret (some (reply retno retmesg))) (.working blocks) :=
  ⟨rfl, fun _ => not_acknowledged h retmesg⟩

/-- An answer to a request that changes nothing. -/
theorem outline_unchanged (h : ¬ stbank.Changes) (answer : Option Reply) :
    Outline (discipline pconn stbank) (Settled stbank) (.ret answer) (.working []) :=
  ⟨rfl, fun hboth => h hboth.1⟩

/-- A request that only reads, and its answer. -/
theorem outline_reads {α : Type} {program : BankProg α} (h : ¬ stbank.Changes)
    (hread : Outline (discipline pconn stbank) (fun g _ => g = .working []) program (.working []))
    (answer : α → Option Reply) :
    Outline (discipline pconn stbank) (Settled stbank) (program.bind fun a => .ret (answer a))
      (.working []) := by
  refine hread.bind fun g a hg => ?_
  subst hg
  exact outline_unchanged h (answer a)

/-- A request of one block: a commit when the function has returned 0, else a rollback. -/
theorem outline_oneBlock {program : BankProg ℤ} {block : Block} (hblock : [block] = stbank.blocks)
    (hworked : Outline (discipline pconn stbank) (Worked [block] []) program (.working []))
    (conn : Fin 5) (answer : Option Reply) {retno : ℤ} (hretno : retno ≠ 0) (retmesg : String) :
    Outline (discipline pconn stbank) (Settled stbank)
      (program.bind fun iret =>
        if iret = 0 then (commit conn).bind fun _ => .ret answer
        else (rollback pconn).bind fun _ => .ret (some (reply retno retmesg)))
      (.working []) := by
  refine hworked.bind fun g iret hg => ?_
  rcases hg with ⟨rfl, rfl⟩ | ⟨-, hne, done, rfl⟩
  · exact outline_commit hblock conn answer
  · rw [if_neg hne]
    exact outline_rollback done hretno retmesg

/-- `procmessage` keeps to the discipline of a request. -/
theorem outline_procmessage (pconn : Fin 5) (stbank : StBank) :
    Outline (discipline pconn stbank) (Settled stbank) (procmessage (some pconn) stbank)
      (.working []) := by
  simp only [procmessage, Prog.bind_eq, Prog.pure_eq]
  by_cases h1 : stbank.msgid = 1
  · rw [if_pos h1]
    exact outline_reads (by simp [StBank.Changes, h1]) (outline_select _ []) _
  rw [if_neg h1]
  by_cases h2 : stbank.msgid = 2
  · rw [if_pos h2]
    have hblock : [insertBlock stbank] = stbank.blocks := by simp [StBank.blocks, h2]
    exact outline_oneBlock hblock (outline_execute [] (insertBlock stbank) []) _ _ (by decide) _
  rw [if_neg h2]
  by_cases h3 : stbank.msgid = 3
  · rw [if_pos h3]
    exact outline_reads (by simp [StBank.Changes, h3]) (outline_select _ []) _
  rw [if_neg h3]
  by_cases h4 : stbank.msgid = 4
  · rw [if_pos h4]
    have hblock : [depositBlock stbank] = stbank.blocks := by simp [StBank.blocks, h4]
    exact outline_oneBlock hblock (outline_execute [] (depositBlock stbank) []) _ _ (by decide) _
  rw [if_neg h4]
  by_cases h5 : stbank.msgid = 5
  · rw [if_pos h5]
    refine outline_msgid_5.bind fun g iret hg => ?_
    rcases hg with ⟨rfl, rfl⟩ | ⟨hcode, hne, done, rfl⟩
    · exact outline_commit (by simp [StBank.blocks, h5]) _ _
    · rw [if_neg hne]
      split_ifs with hpoor hfault
      · exact outline_rollback done (by decide) _
      · exact outline_rollback done (by decide) _
      · simp [hpoor, hfault] at hcode
  rw [if_neg h5]
  by_cases h6 : stbank.msgid = 6
  · rw [if_pos h6]
    refine outline_msgid_6.bind fun g iret hg => ?_
    rcases hg with ⟨rfl, rfl⟩ | ⟨hcode, hne, done, rfl⟩
    · exact outline_commit (by simp [StBank.blocks, h6]) _ _
    · rw [if_neg hne]
      split_ifs with hpoor htarget hfault
      · exact outline_rollback done (by decide) _
      · exact outline_rollback done (by decide) _
      · exact outline_rollback done (by decide) _
      · simp [hpoor, htarget, hfault] at hcode
  rw [if_neg h6]
  by_cases h7 : stbank.msgid = 7
  · rw [if_pos h7]
    exact outline_reads (by simp [StBank.Changes, h7]) (outline_msgid_7 []) _
  rw [if_neg h7]
  by_cases h8 : stbank.msgid = 8
  · rw [if_pos h8]
    exact outline_reads (by simp [StBank.Changes, h8]) (outline_msgid_8 []) _
  rw [if_neg h8]
  exact outline_unchanged (by simp [StBank.Changes, h2, h4, h5, h6]) _

end

end ChatRoom.Bank
