import ChatRoom.Support.StepSystem
import Mathlib.Data.List.Perm.Basic

/-!
# Systems whose actors do not disturb each other

Several actors work on one state, each of them by a step of its own.  When an enabled step stays
enabled while another actor works, and the two orders end in the same state, the interleaving
does not matter: if one run comes to a state where nothing is enabled, then every run can be
completed to that state, by the steps that it has left out.
-/

namespace StepSystem

variable {σ α : Type*}

/-- Two enabled steps of different actors can be made one after the other, in both orders. -/
def Commuting (step : σ → α → Option σ) : Prop :=
  ∀ s a b s₁ s₂, a ≠ b → step s a = some s₁ → step s b = some s₂ →
    ∃ t, step s₁ b = some t ∧ step s₂ a = some t

/-- No step is enabled. -/
def Stuck (step : σ → α → Option σ) (s : σ) : Prop := ∀ a, step s a = none

section
variable [DecidableEq α] {step : σ → α → Option σ}

/-- An enabled step that a run does not make is still enabled after it; one that it makes can be
made first. -/
theorem Commuting.pull (h : Commuting step) {s s₁ t : σ} {a : α} {as : List α}
    (ha : step s a = some s₁) (hrun : run step s as = some t) :
    (a ∈ as ∧ run step s₁ (as.erase a) = some t) ∨
      (a ∉ as ∧ ∃ t', step t a = some t' ∧ run step s₁ as = some t') := by
  induction as generalizing s s₁ with
  | nil =>
      cases hrun
      exact .inr ⟨List.not_mem_nil, s₁, ha, rfl⟩
  | cons b as ih =>
      obtain ⟨s₂, hb, hrest⟩ := Option.bind_eq_some_iff.mp hrun
      by_cases hab : a = b
      · subst hab
        obtain rfl : s₁ = s₂ := Option.some.inj (ha.symm.trans hb)
        exact .inl ⟨List.mem_cons_self, by rwa [List.erase_cons_head]⟩
      · obtain ⟨u, hu₁, hu₂⟩ := h s a b s₁ s₂ hab ha hb
        have herase : (b :: as).erase a = b :: as.erase a :=
          List.erase_cons_tail (by simpa using Ne.symm hab)
        rcases ih hu₂ hrest with ⟨hmem, hshort⟩ | ⟨hmem, t', ht', hlong⟩
        · left
          refine ⟨List.mem_cons_of_mem b hmem, ?_⟩
          rw [herase, run_cons, hu₁, Option.bind_some, hshort]
        · right
          refine ⟨by simp [hab, hmem], t', ht', ?_⟩
          rw [run_cons, hu₁, Option.bind_some, hlong]

/-- When one run ends in a stuck state, every run can be completed to that state by the steps that
it has left out. -/
theorem Commuting.complete (h : Commuting step) {s t u : σ} {as bs : List α}
    (hrun : run step s as = some t) (hstuck : Stuck step t) (hother : run step s bs = some u) :
    ∃ cs, run step u cs = some t ∧ (bs ++ cs).Perm as := by
  induction bs generalizing s as with
  | nil =>
      cases hother
      exact ⟨as, hrun, List.Perm.refl as⟩
  | cons b bs ih =>
      obtain ⟨s₁, hb, hrest⟩ := Option.bind_eq_some_iff.mp hother
      rcases h.pull hb hrun with ⟨hmem, hshort⟩ | ⟨-, t', ht', -⟩
      · obtain ⟨cs, hcs, hperm⟩ := ih hshort hrest
        exact ⟨cs, hcs, (hperm.cons b).trans (List.perm_cons_erase hmem).symm⟩
      · rw [hstuck b] at ht'
        cases ht'

theorem Commuting.length_le (h : Commuting step) {s t u : σ} {as bs : List α}
    (hrun : run step s as = some t) (hstuck : Stuck step t) (hother : run step s bs = some u) :
    bs.length ≤ as.length := by
  obtain ⟨cs, -, hperm⟩ := h.complete hrun hstuck hother
  have hlen := hperm.length_eq
  rw [List.length_append] at hlen
  omega

end

end StepSystem
