import Mathlib.Tactic.Common

/-!
# Programs that call operations

A program is a tree: it returns a value, or calls an operation and goes on with the answer.  The
same tree is read in two ways: `run` executes it alone, and a scheduler may execute its calls one
at a time between those of other programs.

An outline goes along a program with a state of its own, a summary of the calls made so far and
of their answers, and says which calls are allowed and what holds at the end.
-/

namespace Program

/-- Programs over the operations `Op` with answers in `Res`. -/
inductive Prog (Op : Type) (Res : Op → Type) (α : Type) where
  | ret (a : α)
  | call (op : Op) (next : Res op → Prog Op Res α)

variable {Op : Type} {Res : Op → Type} {α β γ σ : Type}

namespace Prog

def bind : Prog Op Res α → (α → Prog Op Res β) → Prog Op Res β
  | ret a, f => f a
  | call op next, f => call op fun r => (next r).bind f

instance : Monad (Prog Op Res) where
  pure := ret
  bind := bind

/-- The program that calls one operation and returns its answer. -/
def request (op : Op) : Prog Op Res (Res op) := call op ret

@[simp] theorem pure_eq (a : α) : (pure a : Prog Op Res α) = ret a := rfl

@[simp] theorem bind_eq (p : Prog Op Res α) (f : α → Prog Op Res β) : p >>= f = p.bind f := rfl

@[simp] theorem ret_bind (a : α) (f : α → Prog Op Res β) : (ret a).bind f = f a := rfl

@[simp] theorem call_bind (op : Op) (next : Res op → Prog Op Res α) (f : α → Prog Op Res β) :
    (call op next).bind f = call op fun r => (next r).bind f := rfl

@[simp] theorem bind_assoc (p : Prog Op Res α) (f : α → Prog Op Res β) (g : β → Prog Op Res γ) :
    (p.bind f).bind g = p.bind fun a => (f a).bind g := by
  induction p with
  | ret a => rfl
  | call op next ih =>
      simp only [call_bind]
      congr 1
      funext r
      exact ih r

@[simp] theorem request_bind (op : Op) (f : Res op → Prog Op Res β) :
    (request op).bind f = call op f := rfl

/-! ## Execution -/

/-- The program runs alone; `none` is an operation that gives no answer. -/
def run (handle : (op : Op) → σ → Option (σ × Res op)) : Prog Op Res α → σ → Option (σ × α)
  | ret a, s => some (s, a)
  | call op next, s => (handle op s).bind fun r => (next r.2).run handle r.1

section
variable (handle : (op : Op) → σ → Option (σ × Res op))

@[simp] theorem run_ret (a : α) (s : σ) : (ret a : Prog Op Res α).run handle s = some (s, a) := rfl

@[simp] theorem run_call (op : Op) (next : Res op → Prog Op Res α) (s : σ) :
    (call op next).run handle s = (handle op s).bind fun r => (next r.2).run handle r.1 := rfl

end

/-- Whatever the answers to its calls, the program returns a value with `P`. -/
def Always (P : α → Prop) : Prog Op Res α → Prop
  | ret a => P a
  | call _ next => ∀ r, (next r).Always P

theorem always_of_forall {P : α → Prop} (h : ∀ a, P a) (p : Prog Op Res α) : p.Always P := by
  induction p with
  | ret a => exact h a
  | call op next ih => exact ih

theorem Always.bind {P : α → Prop} {P' : β → Prop} {p : Prog Op Res α} {f : α → Prog Op Res β}
    (h : p.Always P) (hf : ∀ a, P a → (f a).Always P') : (p.bind f).Always P' := by
  induction p with
  | ret a => exact hf a h
  | call op next ih => exact fun r => ih r (h r)

end Prog

/-! ## Outlines -/

/-- Which calls a program may make, by the state of its outline, and how that state goes on. -/
structure Discipline (Op : Type) (Res : Op → Type) (γ : Type) where
  allowed : γ → Op → Prop
  next : γ → (op : Op) → Res op → γ

/-- From `g` on the program makes only allowed calls, whatever the answers, and returns with
`post`. -/
def Outline (D : Discipline Op Res γ) (post : γ → α → Prop) : Prog Op Res α → γ → Prop
  | .ret a, g => post g a
  | .call op next, g => D.allowed g op ∧ ∀ r, Outline D post (next r) (D.next g op r)

section
variable {D : Discipline Op Res γ} {post : γ → α → Prop}

@[simp] theorem outline_ret {a : α} {g : γ} : Outline D post (.ret a) g ↔ post g a := Iff.rfl

@[simp] theorem outline_call {op : Op} {next : Res op → Prog Op Res α} {g : γ} :
    Outline D post (.call op next) g ↔
      D.allowed g op ∧ ∀ r, Outline D post (next r) (D.next g op r) := Iff.rfl

/-- The outline of a program that goes on with another from what the first one leaves. -/
theorem Outline.bind {p : Prog Op Res α} {f : α → Prog Op Res β} {post' : γ → β → Prop} {g : γ}
    (hp : Outline D post p g) (hf : ∀ g a, post g a → Outline D post' (f a) g) :
    Outline D post' (p.bind f) g := by
  induction p generalizing g with
  | ret a => exact hf g a hp
  | call op next ih => exact ⟨hp.1, fun r => ih r (hp.2 r)⟩

theorem Outline.mono {p : Prog Op Res α} {post' : γ → α → Prop} {g : γ}
    (hp : Outline D post p g) (h : ∀ g a, post g a → post' g a) : Outline D post' p g := by
  induction p generalizing g with
  | ret a => exact h g a hp
  | call op next ih => exact ⟨hp.1, fun r => ih r (hp.2 r)⟩

theorem Outline.always {p : Prog Op Res α} {g : γ} (h : Outline D post p g) :
    p.Always fun a => ∃ g', post g' a := by
  induction p generalizing g with
  | ret a => exact ⟨g, h⟩
  | call op next ih => exact fun r => ih r (h.2 r)

end

end Program
