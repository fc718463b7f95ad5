import Mathlib.Data.List.Basic

/-!
# Labelled step systems and guarded runs

A step system is a partial function from a state and a label to the next state.
A run is a finite sequence of labels; a label that is not enabled stops it.

The two predicates below speak about every step and about every state of a run.
The rules at the end turn a fact about one step into a fact about all runs, with
the invariant and the condition on the steps (the guard) kept apart.
-/

namespace StepSystem

variable {σ α : Type*}

/-- The state reached by the labels, when each of them is enabled in its turn. -/
def run (step : σ → α → Option σ) : σ → List α → Option σ
  | s, [] => some s
  | s, a :: as => (step s a).bind fun s' => run step s' as

/-- `P` holds of every enabled step of the run, at the state before the step. -/
def EveryStep (step : σ → α → Option σ) (P : σ → α → Prop) : σ → List α → Prop
  | _, [] => True
  | s, a :: as => ∀ s', step s a = some s' → P s a ∧ EveryStep step P s' as

/-- `Q` holds of every state of the run, the first and the last included. -/
def EveryState (step : σ → α → Option σ) (Q : σ → Prop) : σ → List α → Prop
  | s, [] => Q s
  | s, a :: as => Q s ∧ ∀ s', step s a = some s' → EveryState step Q s' as

@[simp] theorem run_nil (step : σ → α → Option σ) (s : σ) :
    run step s [] = some s := rfl

@[simp] theorem run_cons (step : σ → α → Option σ) (s : σ) (a : α) (as : List α) :
    run step s (a :: as) = (step s a).bind fun s' => run step s' as := rfl

theorem run_append (step : σ → α → Option σ) (s : σ) (as bs : List α) :
    run step s (as ++ bs) = (run step s as).bind fun s' => run step s' bs := by
  induction as generalizing s with
  | nil => rfl
  | cons a as ih =>
      simp only [List.cons_append, run_cons, Option.bind_assoc]
      congr 1
      funext s'
      exact ih s'

theorem everyStep_cons {step : σ → α → Option σ} {P : σ → α → Prop} {s s' : σ} {a : α}
    {as : List α} (h : step s a = some s') :
    EveryStep step P s (a :: as) ↔ P s a ∧ EveryStep step P s' as := by
  simp [EveryStep, h]

theorem EveryStep.and {step : σ → α → Option σ} {P Q : σ → α → Prop} {s : σ} {as : List α}
    (hP : EveryStep step P s as) (hQ : EveryStep step Q s as) :
    EveryStep step (fun s a => P s a ∧ Q s a) s as := by
  induction as generalizing s with
  | nil => trivial
  | cons a as ih =>
      intro s' hs'
      obtain ⟨hPa, hPrest⟩ := hP s' hs'
      obtain ⟨hQa, hQrest⟩ := hQ s' hs'
      exact ⟨⟨hPa, hQa⟩, ih hPrest hQrest⟩

/-- What holds of every step of a run holds of every step of its rest. -/
theorem EveryStep.of_run_append {step : σ → α → Option σ} {P : σ → α → Prop} {s mid : σ}
    {as bs : List α} (h : EveryStep step P s (as ++ bs)) (hrun : run step s as = some mid) :
    EveryStep step P mid bs := by
  induction as generalizing s with
  | nil =>
      cases hrun
      exact h
  | cons a as ih =>
      obtain ⟨s', hs', hrest⟩ := Option.bind_eq_some_iff.mp hrun
      exact ih (h s' hs').2 hrest

/-- A decidable property of steps can be evaluated along a run. -/
instance EveryStep.decidable (step : σ → α → Option σ) (P : σ → α → Prop)
    [∀ s a, Decidable (P s a)] : ∀ s as, Decidable (EveryStep step P s as)
  | _, [] => isTrue trivial
  | s, a :: as =>
      match h : step s a with
      | none => isTrue fun s' hs' => absurd (h.symm.trans hs') (by simp)
      | some s' =>
          have := EveryStep.decidable step P s' as
          decidable_of_iff (P s a ∧ EveryStep step P s' as) (everyStep_cons h).symm

theorem EveryState.head {step : σ → α → Option σ} {Q : σ → Prop} {s : σ} {as : List α}
    (h : EveryState step Q s as) : Q s := by
  cases as with
  | nil => exact h
  | cons a as => exact h.1

/-- The last state of a run is one of its states. -/
theorem EveryState.last {step : σ → α → Option σ} {Q : σ → Prop} {s s' : σ} {as : List α}
    (h : EveryState step Q s as) (hrun : run step s as = some s') : Q s' := by
  induction as generalizing s with
  | nil =>
      cases hrun
      exact h
  | cons a as ih =>
      obtain ⟨mid, hmid, hrest⟩ := Option.bind_eq_some_iff.mp hrun
      exact ih (h.2 mid hmid) hrest

/-! ## From one step to all runs -/

/-- A property of single steps that follows from the invariant and the guard
holds of every step of a run whose steps all meet the guard. -/
theorem everyStep_of_guarded {step : σ → α → Option σ} {guard P : σ → α → Prop}
    {Inv : σ → Prop}
    (hstep : ∀ s a s', Inv s → guard s a → step s a = some s' → Inv s')
    (hP : ∀ s a s', Inv s → guard s a → step s a = some s' → P s a)
    {s : σ} {as : List α} (hs : Inv s) (hguard : EveryStep step guard s as) :
    EveryStep step P s as := by
  induction as generalizing s with
  | nil => trivial
  | cons a as ih =>
      intro s' hs'
      obtain ⟨hga, hrest⟩ := hguard s' hs'
      exact ⟨hP s a s' hs hga hs', ih (hstep s a s' hs hga hs') hrest⟩

/-- What follows from the invariant holds of every state of a run whose steps all meet
the guard. -/
theorem everyState_of_guarded {step : σ → α → Option σ} {guard : σ → α → Prop}
    {Inv Q : σ → Prop}
    (hstep : ∀ s a s', Inv s → guard s a → step s a = some s' → Inv s')
    (hQ : ∀ s, Inv s → Q s)
    {s : σ} {as : List α} (hs : Inv s) (hguard : EveryStep step guard s as) :
    EveryState step Q s as := by
  induction as generalizing s with
  | nil => exact hQ s hs
  | cons a as ih =>
      refine ⟨hQ s hs, fun s' hs' => ?_⟩
      obtain ⟨hga, hrest⟩ := hguard s' hs'
      exact ih (hstep s a s' hs hga hs') hrest

theorem everyStep_true (step : σ → α → Option σ) (s : σ) (as : List α) :
    EveryStep step (fun _ _ => True) s as := by
  induction as generalizing s with
  | nil => trivial
  | cons a as ih => exact fun s' _ => ⟨trivial, ih s'⟩

theorem everyStep_of_forall_mem {P : α → Prop} (step : σ → α → Option σ) (s : σ) {as : List α}
    (h : ∀ a ∈ as, P a) : EveryStep step (fun _ a => P a) s as := by
  induction as generalizing s with
  | nil => trivial
  | cons a as ih =>
      obtain ⟨ha, htail⟩ := List.forall_mem_cons.mp h
      exact fun s' _ => ⟨ha, ih s' htail⟩

/-- What follows from an invariant that every step keeps holds in every state of every run. -/
theorem everyState_of_invariant {step : σ → α → Option σ} {Inv Q : σ → Prop}
    (hstep : ∀ s a s', Inv s → step s a = some s' → Inv s') (hQ : ∀ s, Inv s → Q s)
    {s : σ} (hs : Inv s) (as : List α) : EveryState step Q s as :=
  everyState_of_guarded (fun s a s' h _ => hstep s a s' h) hQ hs (everyStep_true step s as)

/-- When a property holds after a step exactly if the step met the guard, and
guarded steps keep the invariant, the property holds in every state of a run
exactly if all steps of the run met the guard. -/
theorem everyState_iff_everyStep {step : σ → α → Option σ} {guard : σ → α → Prop}
    {Inv Q : σ → Prop}
    (hInv : ∀ s a s', Inv s → guard s a → step s a = some s' → Inv s')
    (hQ : ∀ s a s', Inv s → step s a = some s' → (Q s' ↔ guard s a))
    {s : σ} {as : List α} (hs : Inv s) (hq : Q s) :
    EveryState step Q s as ↔ EveryStep step guard s as := by
  induction as generalizing s with
  | nil => exact ⟨fun _ => trivial, fun _ => hq⟩
  | cons a as ih =>
      constructor
      · rintro ⟨-, h⟩ s' hs'
        have hq' : Q s' := (h s' hs').head
        have hga : guard s a := (hQ s a s' hs hs').mp hq'
        exact ⟨hga, (ih (hInv s a s' hs hga hs') hq').mp (h s' hs')⟩
      · intro h
        refine ⟨hq, fun s' hs' => ?_⟩
        obtain ⟨hga, hrest⟩ := h s' hs'
        have hq' : Q s' := (hQ s a s' hs hs').mpr hga
        exact (ih (hInv s a s' hs hga hs') hq').mpr hrest

/-- When a property of a step amounts to the guard, and guarded steps keep the invariant, it
holds of every step of a run exactly if all steps met the guard. -/
theorem everyStep_iff_of_invariant {step : σ → α → Option σ} {guard P : σ → α → Prop}
    {Inv : σ → Prop}
    (hInv : ∀ s a s', Inv s → guard s a → step s a = some s' → Inv s')
    (hP : ∀ s a s', Inv s → step s a = some s' → (P s a ↔ guard s a))
    {s : σ} {as : List α} (hs : Inv s) :
    EveryStep step P s as ↔ EveryStep step guard s as := by
  induction as generalizing s with
  | nil => exact Iff.rfl
  | cons a as ih =>
      constructor
      · intro h s' hs'
        obtain ⟨hPa, hrest⟩ := h s' hs'
        have hga : guard s a := (hP s a s' hs hs').mp hPa
        exact ⟨hga, (ih (hInv s a s' hs hga hs')).mp hrest⟩
      · intro h s' hs'
        obtain ⟨hga, hrest⟩ := h s' hs'
        exact ⟨(hP s a s' hs hs').mpr hga, (ih (hInv s a s' hs hga hs')).mpr hrest⟩

end StepSystem
