import ChatRoom.Support.Commuting
import ChatRoom.Support.Program
import Mathlib.Data.List.Infix

/-!
# Two processes on a connection

A process reads exact numbers of entries, writes whole blocks, and asks its surroundings.  Two
processes run at the two ends of a connection that keeps the order of what is written.  A read or
a write is made in pieces of any size, and the two processes take their turns in any order; what
they have asked so far is what can be seen of them.

The processes do not disturb each other, so that one run up to a state where both wait shows the
outcome of all runs.
-/

namespace Duplex

open Program StepSystem

/-! ## Processes -/

/-- The operations of a process. -/
inductive Op (α Q : Type) where
  | readn (n : ℕ)
  | writen (block : List α)
  | ask (question : Q)

/-- The answers: what was read, if nothing failed, whether the block was written, and what the
surroundings say. -/
abbrev Op.Res {α Q : Type} (A : Q → Type) : Op α Q → Type
  | readn _ => Option (List α)
  | writen _ => Bool
  | ask question => A question

abbrev Process (α : Type) {Q : Type} (A : Q → Type) (β : Type) := Prog (Op α Q) (Op.Res A) β

section
variable {α Q : Type} {A : Q → Type}

def readn (n : ℕ) : Process α A (Option (List α)) := Prog.request (Op.readn n)

def writen (block : List α) : Process α A Bool := Prog.request (Op.writen block)

def ask (question : Q) : Process α A (A question) := Prog.request (Op.ask question)

end

/-- The answers to the questions of a process, which may depend on what was asked before, and the
program that follows on a returned value. -/
structure Surroundings (α : Type) {Q : Type} (A : Q → Type) (β : Type) where
  answer : List Q → (question : Q) → A question
  resume : β → Option (Process α A β)

/-- A process at work: `moved` is the part of its present read or write that has been made. -/
structure Proc (α : Type) {Q : Type} (A : Q → Type) (β : Type) where
  prog : Process α A β
  moved : List α
  asked : List Q

section
variable {α Q : Type} {A : Q → Type} {β : Type}

/-- One turn of a process: a piece of `k` entries, for which `k` is not 0, or anything else, for
which `k` is 0.  It yields what is left to be read and what was written. -/
def Proc.advance (env : Surroundings α A β) (k : ℕ) (p : Proc α A β) (inbox : List α) :
    Option (Proc α A β × List α × List α) :=
  match p.prog with
  | .ret b =>
      if k = 0 then (env.resume b).map fun prog => ({ p with prog := prog }, inbox, []) else none
  | .call (.readn n) next =>
      if p.moved.length < n then
        if k ≠ 0 ∧ p.moved.length + k ≤ n ∧ k ≤ inbox.length then
          some ({ p with moved := p.moved ++ inbox.take k }, inbox.drop k, [])
        else none
      else if k = 0 then some ({ p with prog := next (some p.moved), moved := [] }, inbox, [])
      else none
  | .call (.writen block) next =>
      let rest := block.drop p.moved.length
      if rest ≠ [] then
        if k ≠ 0 ∧ k ≤ rest.length then
          some ({ p with moved := p.moved ++ rest.take k }, inbox, rest.take k)
        else none
      else if k = 0 then some ({ p with prog := next true, moved := [] }, inbox, [])
      else none
  | .call (.ask question) next =>
      if k = 0 then
        some ({ p with
          prog := next (env.answer p.asked question)
          asked := p.asked ++ [question] }, inbox, [])
      else none

/-- The smallest turn: a piece is a single entry. -/
def Proc.tick (env : Surroundings α A β) (p : Proc α A β) (inbox : List α) :
    Option (Proc α A β × List α × List α) :=
  (p.advance env 0 inbox).or (p.advance env 1 inbox)

variable {env : Surroundings α A β} {p p' : Proc α A β} {inbox rest sent : List α} {k : ℕ}

/-- More input changes nothing but what is left. -/
theorem Proc.advance_append (h : p.advance env k inbox = some (p', rest, sent))
    (more : List α) : p.advance env k (inbox ++ more) = some (p', rest ++ more, sent) := by
  obtain ⟨prog, moved, asked⟩ := p
  rcases prog with b | ⟨n | block | question, next⟩
  · simp only [advance, Option.ite_none_right_eq_some, Option.map_eq_some_iff] at h ⊢
    obtain ⟨hk, prog, hprog, heq⟩ := h
    obtain ⟨rfl, rfl, rfl⟩ := by simpa using heq
    exact ⟨hk, prog, hprog, rfl⟩
  · simp only [advance] at h ⊢
    split_ifs at h with hmoved hpiece hk
    · obtain ⟨rfl, rfl, rfl⟩ := by simpa using h
      have hpiece' : k ≠ 0 ∧ moved.length + k ≤ n ∧ k ≤ (inbox ++ more).length :=
        ⟨hpiece.1, hpiece.2.1, by rw [List.length_append]; omega⟩
      rw [if_pos hmoved, if_pos hpiece', List.take_append_of_le_length hpiece.2.2,
        List.drop_append_of_le_length hpiece.2.2]
    · obtain ⟨rfl, rfl, rfl⟩ := by simpa using h
      rw [if_neg hmoved, if_pos hk]
  · simp only [advance] at h ⊢
    split_ifs at h ⊢ with hmoved hpiece hk
    · obtain ⟨rfl, rfl, rfl⟩ := by simpa using h
      rfl
    · obtain ⟨rfl, rfl, rfl⟩ := by simpa using h
      rfl
  · simp only [advance, Option.ite_none_right_eq_some] at h ⊢
    obtain ⟨hk, heq⟩ := h
    obtain ⟨rfl, rfl, rfl⟩ := by simpa using heq
    exact ⟨hk, rfl⟩

/-- A turn without a piece leaves the input alone. -/
theorem Proc.advance_zero (h : p.advance env 0 inbox = some (p', rest, sent))
    (inbox' : List α) : p.advance env 0 inbox' = some (p', inbox', []) := by
  obtain ⟨prog, moved, asked⟩ := p
  rcases prog with b | ⟨n | block | question, next⟩
  · simp only [advance, reduceIte, Option.map_eq_some_iff] at h ⊢
    obtain ⟨prog, hprog, heq⟩ := h
    obtain ⟨rfl, -, -⟩ := by simpa using heq
    exact ⟨prog, hprog, rfl⟩
  · simp only [advance, ne_eq, not_true_eq_false, false_and, reduceIte] at h ⊢
    split_ifs at h ⊢
    cases h
    rfl
  · simp only [advance, ne_eq, not_true_eq_false, false_and, reduceIte] at h ⊢
    split_ifs at h ⊢
    cases h
    rfl
  · simp only [advance, reduceIte] at h ⊢
    cases h
    rfl

/-- A turn by one entry is a turn by a piece. -/
theorem Proc.exists_advance_of_tick (h : p.tick env inbox = some (p', rest, sent)) :
    ∃ k, p.advance env k inbox = some (p', rest, sent) := by
  rcases hzero : p.advance env 0 inbox with - | out
  · rw [tick, hzero, Option.none_or] at h
    exact ⟨1, h⟩
  · rw [tick, hzero, Option.some_or] at h
    exact ⟨0, hzero.trans h⟩

/-- While a piece of a read or write is possible, a smallest turn is a single entry. -/
theorem Proc.tick_of_advance_one (h : p.advance env 1 inbox = some (p', rest, sent)) :
    p.tick env inbox = some (p', rest, sent) := by
  have hzero : p.advance env 0 inbox = none := by
    obtain ⟨prog, moved, asked⟩ := p
    rcases prog with b | ⟨n | block | question, next⟩ <;> simp [advance] at h ⊢
    · exact h.1
    · exact h.1
  rw [tick, hzero, Option.none_or, h]

/-- A piece of several entries is made entry by entry. -/
theorem Proc.advance_succ (hk : k ≠ 0) (h : p.advance env (k + 1) inbox = some (p', rest, sent)) :
    ∃ q mid sent₁ sent₂, p.tick env inbox = some (q, mid, sent₁) ∧
      q.advance env k mid = some (p', rest, sent₂) ∧ sent = sent₁ ++ sent₂ := by
  obtain ⟨prog, moved, asked⟩ := p
  rcases prog with b | ⟨n | block | question, next⟩
  · simp [advance] at h
  · simp only [advance] at h
    split_ifs at h with hmoved hpiece hzero
    · obtain ⟨rfl, rfl, rfl⟩ := by simpa using h
      have hfirst : (inbox.take 1).length = 1 := by rw [List.length_take]; omega
      have hone : 1 ≠ 0 ∧ moved.length + 1 ≤ n ∧ 1 ≤ inbox.length := by omega
      have hmore : moved.length + 1 < n := by omega
      have hlast : k ≠ 0 ∧ moved.length + 1 + k ≤ n ∧ k ≤ inbox.length - 1 := by omega
      refine ⟨⟨.call (.readn n) next, moved ++ inbox.take 1, asked⟩, inbox.drop 1, [], [],
        tick_of_advance_one ?_, ?_, rfl⟩
      · simp only [advance, if_pos hmoved, if_pos hone]
      · simp only [advance, List.length_append, hfirst, List.length_drop, if_pos hmore,
          if_pos hlast, List.append_assoc, ← List.take_add, List.drop_drop, Nat.add_comm 1 k]
    · exact hzero.elim
  · have hnext : ∀ d : List α, d.length = 1 →
        block.drop (moved ++ d).length = (block.drop moved.length).drop 1 := by
      intro d hd
      rw [List.length_append, hd, List.drop_drop]
    simp only [advance] at h
    split_ifs at h with hrest hpiece hzero
    · obtain ⟨rfl, rfl, rfl⟩ := by simpa using h
      refine ⟨⟨.call (.writen block) next, moved ++ (block.drop moved.length).take 1, asked⟩,
        inbox, (block.drop moved.length).take 1, ((block.drop moved.length).drop 1).take k,
        tick_of_advance_one ?_, ?_, ?_⟩
      · have hone : 1 ≠ 0 ∧ 1 ≤ (block.drop moved.length).length := by omega
        simp only [advance, if_pos hrest, if_pos hone]
      · have hfirst : ((block.drop moved.length).take 1).length = 1 := by
          rw [List.length_take]
          omega
        simp only [advance, hnext _ hfirst]
        generalize block.drop moved.length = rest at hpiece
        have hmore : rest.drop 1 ≠ [] := by
          rw [ne_eq, List.drop_eq_nil_iff]
          omega
        have hlast : k ≠ 0 ∧ k ≤ (rest.drop 1).length := by
          rw [List.length_drop]
          omega
        rw [if_pos hmore, if_pos hlast, List.append_assoc, ← List.take_add, Nat.add_comm 1 k]
      · rw [← List.take_add, Nat.add_comm 1 k]
    · exact hzero.elim
  · simp [advance] at h

theorem Proc.asked_of_advance (h : p.advance env k inbox = some (p', rest, sent)) :
    p.asked <+: p'.asked := by
  obtain ⟨prog, moved, asked⟩ := p
  rcases prog with b | ⟨n | block | question, next⟩
  · simp only [advance, Option.ite_none_right_eq_some, Option.map_eq_some_iff] at h
    obtain ⟨-, prog, -, heq⟩ := h
    obtain ⟨rfl, -, -⟩ := by simpa using heq
    exact List.prefix_rfl
  · simp only [advance] at h
    split_ifs at h <;> cases h <;> exact List.prefix_rfl
  · simp only [advance] at h
    split_ifs at h <;> cases h <;> exact List.prefix_rfl
  · simp only [advance, Option.ite_none_right_eq_some] at h
    obtain ⟨rfl, -, -⟩ := by simpa using h.2
    exact List.prefix_append _ _

theorem Proc.tick_append (h : p.tick env inbox = some (p', rest, sent)) (more : List α) :
    p.tick env (inbox ++ more) = some (p', rest ++ more, sent) := by
  rcases hzero : p.advance env 0 inbox with - | ⟨q, rest', sent'⟩
  · rw [tick, hzero, Option.none_or] at h
    have hzero' : p.advance env 0 (inbox ++ more) = none := by
      obtain ⟨prog, moved, asked⟩ := p
      rcases prog with b | ⟨n | block | question, next⟩ <;>
        simp [advance] at h hzero ⊢ <;> omega
    rw [tick, hzero', Option.none_or]
    exact advance_append h more
  · rw [tick, hzero, Option.some_or] at h
    rw [tick, advance_append (hzero.trans h) more, Option.some_or]

/-! ## Turns of one process -/

/-- Smallest turns of a process lead from one state of it to another, reading the inbox and writing
what is sent. -/
inductive Proc.Works (env : Surroundings α A β) :
    Proc α A β → List α → Proc α A β → List α → List α → Prop where
  | refl (p : Proc α A β) (inbox : List α) : Works env p inbox p inbox []
  | head {p q p' : Proc α A β} {inbox mid rest sent₁ sent₂ : List α}
      (first : p.tick env inbox = some (q, mid, sent₁))
      (others : Works env q mid p' rest sent₂) : Works env p inbox p' rest (sent₁ ++ sent₂)

theorem Proc.Works.trans {q : Proc α A β} {mid sent₁ sent₂ : List α}
    (h : Works env p inbox q mid sent₁) (h' : Works env q mid p' rest sent₂) :
    Works env p inbox p' rest (sent₁ ++ sent₂) := by
  induction h with
  | refl p inbox => exact h'
  | head first others ih =>
      rw [List.append_assoc]
      exact .head first (ih h')

/-- Turns that send nothing come before others. -/
theorem Proc.Works.before {q : Proc α A β} {mid : List α} (h : Works env p inbox q mid [])
    (h' : Works env q mid p' rest sent) : Works env p inbox p' rest sent :=
  h.trans h'

theorem Proc.Works.one (h : p.tick env inbox = some (p', rest, sent)) :
    Works env p inbox p' rest sent := by
  simpa using Works.head h (.refl p' rest)

theorem Proc.works_ask {question : Q} {next : A question → Process α A β} {asked : List Q}
    (inbox : List α) :
    Works env ⟨.call (.ask question) next, [], asked⟩ inbox
      ⟨next (env.answer asked question), [], asked ++ [question]⟩ inbox [] :=
  .one rfl

theorem Proc.works_resume {b : β} {prog : Process α A β} {asked : List Q}
    (h : env.resume b = some prog) (inbox : List α) :
    Works env ⟨.ret b, [], asked⟩ inbox ⟨prog, [], asked⟩ inbox [] :=
  .one (by simp [tick, advance, h])

theorem Proc.works_readn {n : ℕ} {next : Option (List α) → Process α A β} {asked : List Q}
    {got : List α} (hgot : got.length = n) (rest : List α) :
    Works env ⟨.call (.readn n) next, [], asked⟩ (got ++ rest) ⟨next (some got), [], asked⟩ rest
      [] := by
  -- the entries that are still missing
  have hmissing : ∀ moved missing, moved ++ missing = got →
      Works env ⟨.call (.readn n) next, moved, asked⟩ (missing ++ rest)
        ⟨next (some got), [], asked⟩ rest [] := by
    intro moved missing
    induction missing generalizing moved with
    | nil =>
        rintro rfl
        rw [List.append_nil] at hgot ⊢
        refine .one ?_
        simp [tick, advance, hgot]
    | cons a missing ih =>
        intro h
        have hlen := congrArg List.length h
        rw [List.length_append, List.length_cons, hgot] at hlen
        have hlt : moved.length < n := by omega
        have hone : 1 ≠ 0 ∧ moved.length + 1 ≤ n ∧ 1 ≤ (a :: missing ++ rest).length :=
          ⟨Nat.one_ne_zero, hlt, by simp⟩
        have hpiece : advance env 1 ⟨.call (.readn n) next, moved, asked⟩ (a :: missing ++ rest) =
            some (⟨.call (.readn n) next, moved ++ [a], asked⟩, missing ++ rest, []) := by
          simp only [advance, if_pos hlt, if_pos hone]
          rfl
        exact .head (tick_of_advance_one hpiece) (ih (moved ++ [a]) (by simpa using h))
  exact hmissing [] got rfl

theorem Proc.works_writen {block : List α} {next : Bool → Process α A β} {asked : List Q}
    (inbox : List α) :
    Works env ⟨.call (.writen block) next, [], asked⟩ inbox ⟨next true, [], asked⟩ inbox
      block := by
  have hmissing : ∀ moved missing, moved ++ missing = block →
      Works env ⟨.call (.writen block) next, moved, asked⟩ inbox ⟨next true, [], asked⟩ inbox
        missing := by
    intro moved missing
    induction missing generalizing moved with
    | nil =>
        rintro rfl
        refine .one ?_
        simp [tick, advance]
    | cons a missing ih =>
        rintro rfl
        have hpiece : advance env 1 ⟨.call (.writen (moved ++ a :: missing)) next, moved, asked⟩
            inbox = some (⟨.call (.writen (moved ++ a :: missing)) next, moved ++ [a], asked⟩,
              inbox, [a]) := by
          simp [advance]
        exact .head (tick_of_advance_one hpiece) (ih (moved ++ [a]) (by simp))
  exact hmissing [] block rfl

end

/-! ## The connection -/

/-- The two processes and what is on its way to each of them. -/
structure State (α : Type) {Q₁ Q₂ : Type} (A₁ : Q₁ → Type) (A₂ : Q₂ → Type) (β₁ β₂ : Type) where
  left : Proc α A₁ β₁
  right : Proc α A₂ β₂
  toLeft : List α
  toRight : List α

inductive Side where
  | left
  | right
deriving DecidableEq

section
variable {α Q₁ Q₂ : Type} {A₁ : Q₁ → Type} {A₂ : Q₂ → Type} {β₁ β₂ : Type}

/-- The state after a turn of the left process. -/
def State.turnLeft (s : State α A₁ A₂ β₁ β₂) (out : Proc α A₁ β₁ × List α × List α) :
    State α A₁ A₂ β₁ β₂ :=
  { s with left := out.1, toLeft := out.2.1, toRight := s.toRight ++ out.2.2 }

def State.turnRight (s : State α A₁ A₂ β₁ β₂) (out : Proc α A₂ β₂ × List α × List α) :
    State α A₁ A₂ β₁ β₂ :=
  { s with right := out.1, toRight := out.2.1, toLeft := s.toLeft ++ out.2.2 }

theorem State.turnLeft_turnLeft (s : State α A₁ A₂ β₁ β₂) (p q : Proc α A₁ β₁)
    (mid rest sent₁ sent₂ : List α) :
    (s.turnLeft (p, mid, sent₁)).turnLeft (q, rest, sent₂) =
      s.turnLeft (q, rest, sent₁ ++ sent₂) := by
  simp [turnLeft]

theorem State.turnRight_turnRight (s : State α A₁ A₂ β₁ β₂) (p q : Proc α A₂ β₂)
    (mid rest sent₁ sent₂ : List α) :
    (s.turnRight (p, mid, sent₁)).turnRight (q, rest, sent₂) =
      s.turnRight (q, rest, sent₁ ++ sent₂) := by
  simp [turnRight]

variable (env₁ : Surroundings α A₁ β₁) (env₂ : Surroundings α A₂ β₂)

/-- A turn of one of the processes, with the size of the piece that it reads or writes. -/
def step (s : State α A₁ A₂ β₁ β₂) : Side × ℕ → Option (State α A₁ A₂ β₁ β₂)
  | (.left, k) => (s.left.advance env₁ k s.toLeft).map s.turnLeft
  | (.right, k) => (s.right.advance env₂ k s.toRight).map s.turnRight

/-- A smallest turn of one of the processes. -/
def tick (s : State α A₁ A₂ β₁ β₂) : Side → Option (State α A₁ A₂ β₁ β₂)
  | .left => (s.left.tick env₁ s.toLeft).map s.turnLeft
  | .right => (s.right.tick env₂ s.toRight).map s.turnRight

variable {env₁ env₂} {s s' t u : State α A₁ A₂ β₁ β₂}

theorem commuting_tick : Commuting (tick (α := α) env₁ env₂) := by
  have hone : ∀ s s₁ s₂ : State α A₁ A₂ β₁ β₂, tick env₁ env₂ s .left = some s₁ →
      tick env₁ env₂ s .right = some s₂ →
        ∃ t, tick env₁ env₂ s₁ .right = some t ∧ tick env₁ env₂ s₂ .left = some t := by
    intro s s₁ s₂ hleft hright
    obtain ⟨⟨p, rest₁, sent₁⟩, hp, rfl⟩ := Option.map_eq_some_iff.mp hleft
    obtain ⟨⟨q, rest₂, sent₂⟩, hq, rfl⟩ := Option.map_eq_some_iff.mp hright
    refine ⟨⟨p, q, rest₁ ++ sent₂, rest₂ ++ sent₁⟩, ?_, ?_⟩
    · exact Option.map_eq_some_iff.mpr ⟨_, Proc.tick_append hq sent₁, rfl⟩
    · exact Option.map_eq_some_iff.mpr ⟨_, Proc.tick_append hp sent₂, rfl⟩
  intro s a b s₁ s₂ hab ha hb
  cases a <;> cases b
  · exact absurd rfl hab
  · exact hone s s₁ s₂ ha hb
  · obtain ⟨t, ht₁, ht₂⟩ := hone s s₂ s₁ hb ha
    exact ⟨t, ht₂, ht₁⟩
  · exact absurd rfl hab

/-- A turn is made of smallest turns. -/
theorem exists_run_tick_of_step {label : Side × ℕ} (h : step env₁ env₂ s label = some s') :
    ∃ a as, run (tick env₁ env₂) s (a :: as) = some s' := by
  obtain ⟨side, k⟩ := label
  induction k generalizing s with
  | zero =>
      refine ⟨side, [], ?_⟩
      rw [run_cons]
      cases side <;>
        (obtain ⟨out, hout, rfl⟩ := Option.map_eq_some_iff.mp h
         simp [tick, Proc.tick, hout])
  | succ k ih =>
      rcases Nat.eq_zero_or_pos k with rfl | hk
      · refine ⟨side, [], ?_⟩
        rw [run_cons]
        cases side <;>
          (obtain ⟨⟨q, rest, sent⟩, hout, rfl⟩ := Option.map_eq_some_iff.mp h
           simp [tick, Proc.tick_of_advance_one hout])
      · cases side <;>
          (obtain ⟨⟨q, rest, sent⟩, hout, rfl⟩ := Option.map_eq_some_iff.mp h
           obtain ⟨p, mid, sent₁, sent₂, htick, hadvance, rfl⟩ := Proc.advance_succ hk.ne' hout)
        · obtain ⟨a, as, hrun⟩ := @ih (s.turnLeft (p, mid, sent₁))
            (Option.map_eq_some_iff.mpr ⟨_, hadvance, s.turnLeft_turnLeft p q mid rest sent₁ sent₂⟩)
          refine ⟨.left, a :: as, ?_⟩
          rw [run_cons, tick, htick, Option.map_some, Option.bind_some, hrun]
        · obtain ⟨a, as, hrun⟩ := @ih (s.turnRight (p, mid, sent₁))
            (Option.map_eq_some_iff.mpr
              ⟨_, hadvance, s.turnRight_turnRight p q mid rest sent₁ sent₂⟩)
          refine ⟨.right, a :: as, ?_⟩
          rw [run_cons, tick, htick, Option.map_some, Option.bind_some, hrun]

theorem exists_step_of_tick {a : Side} (h : tick env₁ env₂ s a = some s') :
    ∃ k, step env₁ env₂ s (a, k) = some s' := by
  cases a <;>
    (obtain ⟨⟨p, rest, sent⟩, hout, rfl⟩ := Option.map_eq_some_iff.mp h
     obtain ⟨k, hk⟩ := Proc.exists_advance_of_tick hout
     exact ⟨k, Option.map_eq_some_iff.mpr ⟨_, hk, rfl⟩⟩)

theorem exists_run_tick {labels : List (Side × ℕ)} (h : run (step env₁ env₂) s labels = some u) :
    ∃ as, labels.length ≤ as.length ∧ run (tick env₁ env₂) s as = some u := by
  induction labels generalizing s with
  | nil => exact ⟨[], le_refl _, h⟩
  | cons label labels ih =>
      obtain ⟨mid, hmid, hrest⟩ := Option.bind_eq_some_iff.mp h
      obtain ⟨a, as, hfirst⟩ := exists_run_tick_of_step hmid
      obtain ⟨bs, hlen, hbs⟩ := ih hrest
      refine ⟨a :: as ++ bs, ?_, ?_⟩
      · simp only [List.length_cons, List.length_append]
        omega
      · rw [run_append, hfirst, Option.bind_some, hbs]

theorem exists_run_step {as : List Side} (h : run (tick env₁ env₂) s as = some u) :
    ∃ labels, run (step env₁ env₂) s labels = some u := by
  induction as generalizing s with
  | nil => exact ⟨[], h⟩
  | cons a as ih =>
      obtain ⟨mid, hmid, hrest⟩ := Option.bind_eq_some_iff.mp h
      obtain ⟨k, hk⟩ := exists_step_of_tick hmid
      obtain ⟨labels, hlabels⟩ := ih hrest
      refine ⟨(a, k) :: labels, ?_⟩
      rw [run_cons, hk, Option.bind_some, hlabels]

theorem stuck_tick (h : Stuck (step env₁ env₂) t) : Stuck (tick env₁ env₂) t := by
  intro a
  rcases htick : tick env₁ env₂ t a with - | s'
  · rfl
  · obtain ⟨k, hk⟩ := exists_step_of_tick htick
    rw [h (a, k)] at hk
    cases hk

theorem asked_of_run {labels : List (Side × ℕ)} (h : run (step env₁ env₂) s labels = some u) :
    s.left.asked <+: u.left.asked ∧ s.right.asked <+: u.right.asked := by
  induction labels generalizing s with
  | nil =>
      cases h
      exact ⟨List.prefix_rfl, List.prefix_rfl⟩
  | cons label labels ih =>
      obtain ⟨mid, hmid, hrest⟩ := Option.bind_eq_some_iff.mp h
      obtain ⟨hleft, hright⟩ := ih hrest
      obtain ⟨side, k⟩ := label
      cases side <;>
        obtain ⟨⟨p, rest, sent⟩, hout, rfl⟩ := Option.map_eq_some_iff.mp hmid
      · exact ⟨(Proc.asked_of_advance hout).trans hleft, hright⟩
      · exact ⟨hleft, (Proc.asked_of_advance hout).trans hright⟩

/-! ## The outcome -/

/-- Smallest turns lead from one state to another. -/
def Reaches (env₁ : Surroundings α A₁ β₁) (env₂ : Surroundings α A₂ β₂)
    (s t : State α A₁ A₂ β₁ β₂) : Prop :=
  ∃ as, run (tick env₁ env₂) s as = some t

theorem Reaches.refl (s : State α A₁ A₂ β₁ β₂) : Reaches env₁ env₂ s s := ⟨[], rfl⟩

theorem Reaches.trans (h : Reaches env₁ env₂ s t) (h' : Reaches env₁ env₂ t u) :
    Reaches env₁ env₂ s u := by
  obtain ⟨as, has⟩ := h
  obtain ⟨bs, hbs⟩ := h'
  refine ⟨as ++ bs, ?_⟩
  rw [run_append, has, Option.bind_some, hbs]

theorem Proc.Works.reaches_left {p' : Proc α A₁ β₁} {rest sent : List α}
    (h : Works env₁ s.left s.toLeft p' rest sent) :
    Reaches env₁ env₂ s (s.turnLeft (p', rest, sent)) := by
  obtain ⟨left, right, toLeft, toRight⟩ := s
  replace h : Works env₁ left toLeft p' rest sent := h
  induction h generalizing toRight with
  | refl p inbox =>
      refine ⟨[], ?_⟩
      simp [State.turnLeft]
  | @head p q p' inbox mid rest sent₁ sent₂ first others ih =>
      obtain ⟨as, has⟩ := ih (toRight ++ sent₁)
      refine ⟨.left :: as, ?_⟩
      rw [run_cons, Duplex.tick, first, Option.map_some, Option.bind_some]
      exact has.trans (congrArg some (State.turnLeft_turnLeft ⟨p, right, inbox, toRight⟩ q p' ..))

theorem Proc.Works.reaches_right {p' : Proc α A₂ β₂} {rest sent : List α}
    (h : Works env₂ s.right s.toRight p' rest sent) :
    Reaches env₁ env₂ s (s.turnRight (p', rest, sent)) := by
  obtain ⟨left, right, toLeft, toRight⟩ := s
  replace h : Works env₂ right toRight p' rest sent := h
  induction h generalizing toLeft with
  | refl p inbox =>
      refine ⟨[], ?_⟩
      simp [State.turnRight]
  | @head p q p' inbox mid rest sent₁ sent₂ first others ih =>
      obtain ⟨as, has⟩ := ih (toLeft ++ sent₁)
      refine ⟨.right :: as, ?_⟩
      rw [run_cons, Duplex.tick, first, Option.map_some, Option.bind_some]
      exact has.trans (congrArg some (State.turnRight_turnRight ⟨left, p, toLeft, inbox⟩ q p' ..))

/-- When some run ends with both processes waiting, all runs are bounded, each of them can be
completed to the same end, and what it has asked is a beginning of what is asked up to there. -/
theorem outcome (h : Reaches env₁ env₂ s t) (hstuck : Stuck (step env₁ env₂) t) :
    ∃ bound, ∀ labels u, run (step env₁ env₂) s labels = some u →
      labels.length ≤ bound ∧ (∃ more, run (step env₁ env₂) u more = some t) ∧
        u.left.asked <+: t.left.asked ∧ u.right.asked <+: t.right.asked := by
  obtain ⟨as, has⟩ := h
  refine ⟨as.length, fun labels u hu => ?_⟩
  obtain ⟨bs, hlen, hbs⟩ := exists_run_tick hu
  obtain ⟨cs, hcs, -⟩ := commuting_tick.complete has (stuck_tick hstuck) hbs
  obtain ⟨more, hmore⟩ := exists_run_step hcs
  have hle := commuting_tick.length_le has (stuck_tick hstuck) hbs
  exact ⟨hlen.trans hle, ⟨more, hmore⟩, asked_of_run hmore⟩

end

/-! ## A broken connection -/

section
variable {α Q : Type} {A : Q → Type} {β : Type}

/-- A turn of a process whose connection is broken: a read or write that is not complete fails. -/
def Proc.lose (env : Surroundings α A β) (p : Proc α A β) : Option (Proc α A β) :=
  match p.advance env 0 [] with
  | some (p', _, _) => some p'
  | none =>
      match p.prog with
      | .call (.readn _) next => some ⟨next none, [], p.asked⟩
      | .call (.writen _) next => some ⟨next false, [], p.asked⟩
      | _ => none

theorem Proc.lose_writen (env : Surroundings α A β) {block : List α} (h : block ≠ [])
    (next : Bool → Process α A β) (asked : List Q) :
    lose env ⟨.call (.writen block) next, [], asked⟩ = some ⟨next false, [], asked⟩ := by
  simp [lose, advance, h]

/-- The state of a process after some turns on a broken connection. -/
def Proc.loses (env : Surroundings α A β) : ℕ → Proc α A β → Option (Proc α A β)
  | 0, p => some p
  | n + 1, p => (p.lose env).bind (loses env n)

/-- Where a process goes on once a read or write has failed: it asks nothing any more. -/
def Resigned (env : Surroundings α A β) (S : Process α A β → Prop) : Prop :=
  ∀ prog asked p', S prog → Proc.lose env ⟨prog, [], asked⟩ = some p' →
    S p'.prog ∧ p'.moved = [] ∧ p'.asked = asked

/-- Every failure of a read or write in the program leads to `S`. -/
def Cautious (S : Process α A β → Prop) : Process α A β → Prop
  | .ret _ => True
  | .call (.readn _) next => S (next none) ∧ ∀ got, Cautious S (next (some got))
  | .call (.writen _) next => S (next false) ∧ Cautious S (next true)
  | .call (.ask _) next => ∀ a, Cautious S (next a)

variable {env : Surroundings α A β} {S : Process α A β → Prop} {p p' : Proc α A β}

theorem Resigned.asked_of_loses (h : Resigned env S) {n : ℕ} {prog : Process α A β}
    {asked : List Q} (hS : S prog) (hrun : Proc.loses env n ⟨prog, [], asked⟩ = some p') :
    p'.asked = asked := by
  induction n generalizing prog with
  | zero =>
      cases hrun
      rfl
  | succ n ih =>
      obtain ⟨⟨prog', moved', asked'⟩, hfirst, hrest⟩ := Option.bind_eq_some_iff.mp hrun
      obtain ⟨hS', rfl, rfl⟩ := h prog asked _ hS hfirst
      exact ih hS' hrest

theorem Cautious.advance {inbox rest sent : List α} {k : ℕ} (hS : Cautious S p.prog)
    (hresume : ∀ b prog, env.resume b = some prog → Cautious S prog)
    (h : p.advance env k inbox = some (p', rest, sent)) : Cautious S p'.prog := by
  obtain ⟨prog, moved, asked⟩ := p
  rcases prog with b | ⟨n | block | question, next⟩
  · simp only [Proc.advance, Option.ite_none_right_eq_some, Option.map_eq_some_iff] at h
    obtain ⟨-, prog, hprog, heq⟩ := h
    obtain ⟨rfl, -, -⟩ := by simpa using heq
    exact hresume b prog hprog
  · simp only [Proc.advance] at h
    split_ifs at h <;> cases h
    · exact hS
    · exact hS.2 moved
  · simp only [Proc.advance] at h
    split_ifs at h <;> cases h
    · exact hS
    · exact hS.2
  · simp only [Proc.advance, Option.ite_none_right_eq_some] at h
    obtain ⟨rfl, -, -⟩ := by simpa using h.2
    exact hS _

/-- On a broken connection a process goes on for a while as on a whole one, and then asks nothing
any more. -/
theorem Cautious.exists_works (hS : Cautious S p.prog) (hresigned : Resigned env S)
    (hresume : ∀ b prog, env.resume b = some prog → Cautious S prog) {n : ℕ}
    (h : p.loses env n = some p') (inbox : List α) :
    ∃ q sent, Proc.Works env p inbox q inbox sent ∧ q.asked = p'.asked := by
  induction n generalizing p with
  | zero =>
      cases h
      exact ⟨p', [], .refl p' inbox, rfl⟩
  | succ n ih =>
      obtain ⟨mid, hfirst, hrest⟩ := Option.bind_eq_some_iff.mp h
      rw [Proc.lose] at hfirst
      split at hfirst
      · rename_i p₁ rest sent hadvance
        obtain rfl : p₁ = mid := Option.some.inj hfirst
        obtain ⟨q, sent', hworks, hasked⟩ := ih (hS.advance hresume hadvance) hrest
        have hlocal : p.tick env inbox = some (p₁, inbox, []) := by
          rw [Proc.tick, Proc.advance_zero hadvance inbox, Option.some_or]
        exact ⟨q, _, .head hlocal hworks, hasked⟩
      · obtain ⟨prog, moved, asked⟩ := p
        refine ⟨⟨prog, moved, asked⟩, [], .refl _ inbox, ?_⟩
        rcases prog with b | ⟨k | block | question, next⟩
        · cases hfirst
        · cases hfirst
          exact (hresigned.asked_of_loses hS.1 hrest).symm
        · cases hfirst
          exact (hresigned.asked_of_loses hS.1 hrest).symm
        · cases hfirst

end

section
variable {α Q₁ Q₂ : Type} {A₁ : Q₁ → Type} {A₂ : Q₂ → Type} {β₁ β₂ : Type}
variable {env₁ : Surroundings α A₁ β₁} {env₂ : Surroundings α A₂ β₂}
variable {S₁ : Process α A₁ β₁ → Prop} {S₂ : Process α A₂ β₂ → Prop}
variable {s t u : State α A₁ A₂ β₁ β₂}

theorem cautious_of_run (hleft : Cautious S₁ s.left.prog) (hright : Cautious S₂ s.right.prog)
    (hresume₁ : ∀ b prog, env₁.resume b = some prog → Cautious S₁ prog)
    (hresume₂ : ∀ b prog, env₂.resume b = some prog → Cautious S₂ prog)
    {labels : List (Side × ℕ)} (h : run (step env₁ env₂) s labels = some u) :
    Cautious S₁ u.left.prog ∧ Cautious S₂ u.right.prog := by
  induction labels generalizing s with
  | nil =>
      cases h
      exact ⟨hleft, hright⟩
  | cons label labels ih =>
      obtain ⟨mid, hmid, hrest⟩ := Option.bind_eq_some_iff.mp h
      obtain ⟨side, k⟩ := label
      cases side <;>
        obtain ⟨⟨p, rest, sent⟩, hout, rfl⟩ := Option.map_eq_some_iff.mp hmid
      · exact @ih (s.turnLeft (p, rest, sent)) (hleft.advance hresume₁ hout) hright hrest
      · exact @ih (s.turnRight (p, rest, sent)) hleft (hright.advance hresume₂ hout) hrest

/-- When the connection breaks in the middle of a run, what the processes have asked up to then, and
ask before they give up, is a beginning of what they would have asked on a whole one. -/
theorem outcome_broken (h : Reaches env₁ env₂ s t) (hstuck : Stuck (step env₁ env₂) t)
    (hleft : Cautious S₁ s.left.prog) (hright : Cautious S₂ s.right.prog)
    (hresume₁ : ∀ b prog, env₁.resume b = some prog → Cautious S₁ prog)
    (hresume₂ : ∀ b prog, env₂.resume b = some prog → Cautious S₂ prog)
    (hresigned₁ : Resigned env₁ S₁) (hresigned₂ : Resigned env₂ S₂)
    {labels : List (Side × ℕ)} (hrun : run (step env₁ env₂) s labels = some u) {n m : ℕ}
    {p : Proc α A₁ β₁} {q : Proc α A₂ β₂} (hp : u.left.loses env₁ n = some p)
    (hq : u.right.loses env₂ m = some q) :
    p.asked <+: t.left.asked ∧ q.asked <+: t.right.asked := by
  obtain ⟨bound, hbound⟩ := outcome h hstuck
  obtain ⟨hcautious₁, hcautious₂⟩ := cautious_of_run hleft hright hresume₁ hresume₂ hrun
  obtain ⟨p', sent, hworks, hasked⟩ :=
    hcautious₁.exists_works hresigned₁ hresume₁ hp u.toLeft
  obtain ⟨q', sent', hworks', hasked'⟩ :=
    hcautious₂.exists_works hresigned₂ hresume₂ hq u.toRight
  obtain ⟨as, -, has⟩ := exists_run_tick hrun
  have hreaches : Reaches env₁ env₂ s u := ⟨as, has⟩
  obtain ⟨bs, hbs⟩ := hreaches.trans hworks.reaches_left
  obtain ⟨cs, hcs⟩ := hreaches.trans hworks'.reaches_right
  obtain ⟨labels₁, hlabels₁⟩ := exists_run_step hbs
  obtain ⟨labels₂, hlabels₂⟩ := exists_run_step hcs
  have hleftAsked := (hbound labels₁ _ hlabels₁).2.2.1
  have hrightAsked := (hbound labels₂ _ hlabels₂).2.2.2
  exact ⟨hasked ▸ hleftAsked, hasked' ▸ hrightAsked⟩

end

end Duplex
