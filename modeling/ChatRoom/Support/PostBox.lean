import Mathlib.Data.List.Perm.Basic

/-!
# Post boxes

A post box belongs to one person.  A message is handed over, left in the box, or lost; the owner
lists what is in the box and then clears it, and messages may come in at any time.  Nothing is lost
or read twice exactly if no message is lost on the way, nothing is listed twice, and the box is
cleared only of what was listed.
-/

namespace PostBox

variable {μ : Type*}

/-- `accepted` are all messages for the owner, `got` those that the owner has read, in order.  Of
the messages in the box the owner has listed the first `listed`. -/
structure Box (μ : Type*) where
  accepted : List μ
  got : List μ
  waiting : List μ
  listed : ℕ

inductive Event (μ : Type*) where
  | hand (message : μ)
  | leave (message : μ)
  | lose (message : μ)
  | list
  | clear

namespace Box

def after (b : Box μ) : Event μ → Box μ
  | .hand message =>
      { b with accepted := b.accepted ++ [message], got := b.got ++ [message] }
  | .leave message =>
      { b with accepted := b.accepted ++ [message], waiting := b.waiting ++ [message] }
  | .lose message => { b with accepted := b.accepted ++ [message] }
  | .list => { b with got := b.got ++ b.waiting, listed := b.waiting.length }
  | .clear => { b with waiting := [], listed := 0 }

/-- The messages in the box that the owner has not read. -/
def unseen (b : Box μ) : List μ := b.waiting.drop b.listed

/-- Every message was read once, or waits unread. -/
def Accounted (b : Box μ) : Prop := (b.got ++ b.unseen).Perm b.accepted

/-- The same, in the order in which the messages came. -/
def InOrder (b : Box μ) : Prop := b.got ++ b.unseen = b.accepted

/-- The condition on an event under which no message is lost or read twice. -/
def Careful (b : Box μ) : Event μ → Prop
  | .hand _ | .leave _ => True
  | .lose _ => False
  | .list => b.listed = 0
  | .clear => b.unseen = []

/-- The condition under which the order is kept, too: a message that overtakes others is the same
as they are. -/
def Patient (b : Box μ) : Event μ → Prop
  | .hand message => ∀ m ∈ b.unseen, m = message
  | e => b.Careful e

variable {b : Box μ}

theorem length_unseen (b : Box μ) : b.unseen.length = b.waiting.length - b.listed :=
  List.length_drop

theorem listed_after_le (hlisted : b.listed ≤ b.waiting.length) (e : Event μ) :
    (b.after e).listed ≤ (b.after e).waiting.length := by
  cases e with
  | hand message | lose message => exact hlisted
  | leave message => exact Nat.le_trans hlisted (by simp [after])
  | list => exact Nat.le_refl _
  | clear => exact Nat.le_refl _

/-- A message that is left in the box is behind those that were listed. -/
theorem unseen_after_leave (hlisted : b.listed ≤ b.waiting.length) (message : μ) :
    (b.after (.leave message)).unseen = b.unseen ++ [message] :=
  List.drop_append_of_le_length hlisted

theorem unseen_after_list (b : Box μ) : (b.after .list).unseen = [] := List.drop_length

/-- A listing shows what was unseen before exactly if nothing had been listed. -/
theorem waiting_eq_unseen_iff (hlisted : b.listed ≤ b.waiting.length) :
    b.waiting.length = b.unseen.length ↔ b.listed = 0 := by
  rw [length_unseen]
  omega

theorem eq_unseen_of_listed (h : b.listed = 0) : b.waiting = b.unseen := by
  rw [unseen, h, List.drop_zero]

theorem accounted_after_iff (hb : b.Accounted) (hlisted : b.listed ≤ b.waiting.length)
    (e : Event μ) : (b.after e).Accounted ↔ b.Careful e := by
  have hlength := hb.length_eq
  rw [List.length_append] at hlength
  cases e with
  | hand message =>
      refine iff_of_true ?_ trivial
      have hmoved : (b.got ++ [message] ++ b.unseen).Perm (b.got ++ b.unseen ++ [message]) := by
        rw [List.append_assoc, List.append_assoc]
        exact List.perm_append_comm.append_left b.got
      exact hmoved.trans (hb.append_right [message])
  | leave message =>
      refine iff_of_true ?_ trivial
      rw [Accounted, unseen_after_leave hlisted, ← List.append_assoc]
      exact hb.append_right [message]
  | lose message =>
      refine iff_of_false (fun h => ?_) id
      have hlost : b.got.length + b.unseen.length = b.accepted.length + 1 := by
        have hsame := h.length_eq
        rwa [List.length_append, after, List.length_append, List.length_singleton] at hsame
      omega
  | list =>
      rw [Accounted, unseen_after_list, List.append_nil, Careful]
      constructor
      · intro h
        have hsame : (b.got ++ b.waiting).length = b.accepted.length := h.length_eq
        rw [List.length_append] at hsame
        exact (waiting_eq_unseen_iff hlisted).mp (by omega)
      · intro h
        rw [after, eq_unseen_of_listed h]
        exact hb
  | clear =>
      rw [Careful]
      constructor
      · intro h
        have hsame : (b.got ++ []).length = b.accepted.length := h.length_eq
        rw [List.append_nil] at hsame
        exact List.eq_nil_of_length_eq_zero (by omega)
      · intro h
        rw [Accounted, h, List.append_nil] at hb
        rw [Accounted]
        exact (List.append_nil b.got).symm ▸ hb

/-- A message commutes with a list exactly if the list repeats it. -/
theorem cons_eq_append_singleton_iff (message : μ) (l : List μ) :
    message :: l = l ++ [message] ↔ ∀ m ∈ l, m = message := by
  induction l with
  | nil => simp
  | cons m l ih =>
      rw [List.cons_append, List.cons.injEq, List.forall_mem_cons]
      constructor
      · rintro ⟨rfl, h⟩
        exact ⟨rfl, ih.mp h⟩
      · rintro ⟨rfl, h⟩
        exact ⟨rfl, ih.mpr h⟩

theorem inOrder_after_iff (hb : b.InOrder) (hlisted : b.listed ≤ b.waiting.length)
    (e : Event μ) : (b.after e).InOrder ↔ b.Patient e := by
  have hcareful : (b.after e).InOrder → b.Careful e := fun h =>
    (accounted_after_iff (List.Perm.of_eq hb) hlisted e).mp (List.Perm.of_eq h)
  cases e with
  | hand message =>
      rw [Patient, ← cons_eq_append_singleton_iff, InOrder]
      have hleft : b.got ++ [message] ++ b.unseen = b.got ++ (message :: b.unseen) := by simp
      have hright : b.accepted ++ [message] = b.got ++ (b.unseen ++ [message]) := by
        rw [← hb, List.append_assoc]
      exact (Eq.congr hleft hright).trans (List.append_right_inj b.got)
  | leave message =>
      refine iff_of_true ?_ trivial
      rw [InOrder, unseen_after_leave hlisted, ← List.append_assoc]
      exact congrArg (· ++ [message]) hb
  | lose message => exact iff_of_false hcareful id
  | list =>
      refine ⟨hcareful, fun h => ?_⟩
      rw [InOrder, unseen_after_list, List.append_nil, after, eq_unseen_of_listed h]
      exact hb
  | clear =>
      refine ⟨hcareful, fun h => ?_⟩
      have hempty : b.unseen = [] := h
      rw [InOrder, hempty, List.append_nil] at hb
      exact (List.append_nil b.got).trans hb

end Box

end PostBox
