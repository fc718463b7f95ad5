import ChatRoom.Support.LinkedList
import ChatRoom.Support.StepSystem
import Mathlib.Algebra.Ring.Int.Defs
import Mathlib.Algebra.Ring.Nat

/-!
# `CircleList`

The list of `circleList.c`: the head cell with its link, a pointer to the last cell and a count.
Beside it runs the sequence of nodes that the calls stand for.  The pointer to the last cell is not
moved when the last node is deleted, and an index behind the last node ends in a read through NULL.
-/

namespace ChatRoom

open LinkedQueue LinkedList StepSystem

variable {α : Type}

/-! ## The functions -/

/-- `CircleList`, with the `next` of every cell in memory. -/
structure CircleList (α : Type) where
  next : Cell α → Option (Cell α)
  pTail : Cell α
  count : ℤ

namespace CircleList

/-- The value of an `int` after an operation. -/
def int (n : ℤ) : ℤ := n.bmod (2 ^ 32)

def createList : CircleList α := ⟨fun _ => none, .head, 0⟩

def insertList [DecidableEq α] (pList : CircleList α) (pInsertNode : Cell α) : CircleList α where
  next := Function.update (Function.update pList.next pInsertNode (pList.next pList.pTail))
    pList.pTail (some pInsertNode)
  pTail := pInsertNode
  count := int (pList.count + 1)

/-- The loop of `getNodeByIndex`, with the number of turns that the index still allows. -/
def getLoop (next : Cell α → Option (Cell α)) : ℕ → Option (Cell α) → Option (Cell α)
  | 0, pStartNode => pStartNode
  | _ + 1, none => none
  | n + 1, some pStartNode => getLoop next n (next pStartNode)

def getNodeByIndex (pList : CircleList α) (pos : ℤ) : Option (Cell α) :=
  if pos ≤ 0 then none else getLoop pList.next pos.toNat (some .head)

/-- The loop of `delNodeByIndex`: `pPreNode` and `pCurNode` at its end. -/
def delLoop (next : Cell α → Option (Cell α)) :
    ℕ → Cell α → Option (Cell α) → Cell α × Option (Cell α)
  | 0, pPreNode, pCurNode => (pPreNode, pCurNode)
  | _ + 1, pPreNode, none => (pPreNode, none)
  | n + 1, _, some pCurNode => delLoop next n pCurNode (next pCurNode)

/-- `none` if the program reads through NULL. -/
def delNodeByIndex [DecidableEq α] (pList : CircleList α) (index : ℤ) : Option (CircleList α) :=
  if index ≤ 0 then some pList
  else
    match delLoop pList.next index.toNat .head (some .head) with
    | (_, none) => none
    | (pPreNode, some pCurNode) =>
        some { pList with
          next := Function.update pList.next pPreNode (pList.next pCurNode)
          count := int (pList.count - 1) }

/-- The cells that the loop of `clearList` frees, if it ends within so many turns.  The first of
them is the head. -/
def clearLoop (next : Cell α → Option (Cell α)) : ℕ → Option (Cell α) → Option (List (Cell α))
  | _, none => some []
  | 0, some _ => none
  | n + 1, some pStartNode => (clearLoop next n (next pStartNode)).map (pStartNode :: ·)

/-- A freed cell is no longer in the list; nothing else becomes of it here. -/
def clearList [DecidableEq α] (pList : CircleList α) (turns : ℕ) : Option (CircleList α) :=
  (clearLoop pList.next turns (some .head)).map fun _ =>
    ⟨Function.update pList.next .head none, .head, 0⟩

/-! ## Calls beside a sequence -/

inductive Call (α : Type) where
  | insertList (pInsertNode : α)
  | delNodeByIndex (index : ℤ)
  | clearList (turns : ℕ)

/-- The list, until a call has read through NULL, and the sequence that it should represent. -/
structure Pair (α : Type) where
  pList : Option (CircleList α)
  nodes : List α

def Pair.start : Pair α := ⟨some createList, []⟩

/-- The element at an index, from 1 on. -/
def element (nodes : List α) (index : ℤ) : Option α :=
  if index < 1 then none else nodes[(index - 1).toNat]?

/-- Without the element at the index, if there is one. -/
def removeAt (nodes : List α) (index : ℤ) : List α :=
  if index < 1 then nodes else nodes.eraseIdx (index - 1).toNat

/-- One call.  Only nodes that are not in the list are inserted. -/
def callStep [DecidableEq α] (s : Pair α) (call : Call α) : Option (Pair α) :=
  s.pList.bind fun pList =>
    match call with
    | .insertList pInsertNode =>
        if pInsertNode ∈ s.nodes then none
        else some ⟨some (pList.insertList (.node pInsertNode)), s.nodes ++ [pInsertNode]⟩
    | .delNodeByIndex index => some ⟨pList.delNodeByIndex index, removeAt s.nodes index⟩
    | .clearList turns => (pList.clearList turns).map fun pList => ⟨some pList, []⟩

/-- The list represents the sequence: its count, its last cell, the end of the chain, and the node
at every index; and it can be cleared. -/
structure Represents [DecidableEq α] (pList : CircleList α) (nodes : List α) : Prop where
  count : pList.count = nodes.length
  pTail : pList.pTail = lastCell nodes
  last : pList.next (lastCell nodes) = none
  get : ∀ i, pList.getNodeByIndex i = (element nodes i).map .node
  ends : ∃ turns pList', pList.clearList turns = some pList'

/-- No call has read through NULL, and the list represents the sequence. -/
def Pair.Refines [DecidableEq α] (s : Pair α) : Prop :=
  ∃ pList, s.pList = some pList ∧ Represents pList s.nodes

/-- A deletion leaves the last node alone, and no index is behind it; the count does not pass the
largest `int`. -/
def KeepsLast (s : Pair α) : Call α → Prop
  | .insertList _ => s.nodes.length + 1 < 2 ^ 31
  | .delNodeByIndex index => index < 1 ∨ index < s.nodes.length
  | .clearList _ => True

instance (s : Pair α) : (call : Call α) → Decidable (KeepsLast s call)
  | .insertList _ => inferInstanceAs (Decidable (_ < _))
  | .delNodeByIndex index => inferInstanceAs (Decidable (index < 1 ∨ _))
  | .clearList _ => isTrue trivial

/-! ## The loops on a chain -/

section
variable {next : Cell α → Option (Cell α)} {p : Option (Cell α)} {cells : List (Cell α)}

theorem getLoop_of_chain (h : Chain next p cells) (n : ℕ) : getLoop next n p = cells[n]? := by
  induction n generalizing p cells with
  | zero =>
      rcases cells with - | ⟨a, cells⟩
      · exact h
      · exact h.1
  | succ n ih =>
      rcases cells with - | ⟨a, cells⟩
      · obtain rfl : p = none := h
        rfl
      · obtain ⟨rfl, hrest⟩ := h
        exact ih hrest

/-- The loop of a deletion stops at NULL exactly if the index is behind the last cell. -/
theorem delLoop_snd (h : Chain next p cells) (n : ℕ) (pre : Cell α) :
    (delLoop next n pre p).2 = cells[n]? := by
  induction n generalizing p cells pre with
  | zero =>
      rcases cells with - | ⟨a, cells⟩
      · exact h
      · exact h.1
  | succ n ih =>
      rcases cells with - | ⟨a, cells⟩
      · obtain rfl : p = none := h
        rfl
      · obtain ⟨rfl, hrest⟩ := h
        exact ih hrest a

theorem delLoop_of_chain {front rest : List (Cell α)} {pre : Cell α}
    (h : Chain next p (front ++ pre :: rest)) (q : Cell α) :
    delLoop next (front.length + 1) q p = (pre, next pre) := by
  induction front generalizing p q with
  | nil =>
      obtain ⟨rfl, -⟩ := h
      rfl
  | cons a front ih =>
      obtain ⟨rfl, hrest⟩ := h
      exact ih hrest a

/-- The loop of `clearList` ends, and has freed every cell. -/
theorem clearLoop_of_chain (h : Chain next p cells) :
    clearLoop next cells.length p = some cells := by
  induction cells generalizing p with
  | nil =>
      obtain rfl : p = none := h
      rfl
  | cons a cells ih =>
      obtain ⟨rfl, hrest⟩ := h
      simp [clearLoop, ih hrest]

end

/-! ## The invariant -/

structure Sound (pList : CircleList α) (nodes : List α) : Prop where
  linked : Linked pList.next nodes
  pTail : pList.pTail = lastCell nodes
  count : pList.count = nodes.length
  bounded : nodes.length < 2 ^ 31

def Pair.Sound (s : Pair α) : Prop := ∃ pList, s.pList = some pList ∧ CircleList.Sound pList s.nodes

theorem sound_start : (Pair.start : Pair α).Sound :=
  ⟨createList, rfl, .nil, rfl, rfl, Nat.two_pow_pos 31⟩

section
variable {pList : CircleList α} {nodes : List α}

theorem Sound.getNodeByIndex (h : Sound pList nodes) (i : ℤ) :
    pList.getNodeByIndex i = (element nodes i).map .node := by
  by_cases hi : i ≤ 0
  · rw [CircleList.getNodeByIndex, if_pos hi, element, if_pos (by omega), Option.map_none]
  · obtain ⟨k, rfl⟩ : ∃ k : ℕ, i = k + 1 := ⟨(i - 1).toNat, by omega⟩
    have hturns : ((k : ℤ) + 1).toNat = k + 1 := by omega
    have hindex : ((k : ℤ) + 1 - 1).toNat = k := by omega
    rw [CircleList.getNodeByIndex, if_neg hi, getLoop_of_chain h.linked.cells, hturns, element,
      if_neg (by omega), hindex]
    simp

/-- The count of a list that is sound is an `int`. -/
theorem int_eq {n : ℤ} (hlow : -2 ^ 31 ≤ n) (hhigh : n < 2 ^ 31) : int n = n :=
  Int.bmod_eq_of_le (by omega) (by omega)

theorem int_lt (n : ℤ) : int n < 2 ^ 31 := by
  have h : n.bmod (2 ^ 32) < ((2 ^ 32 : ℕ) + 1) / 2 := Int.bmod_lt (by decide)
  exact h

theorem Sound.pTail_ne {before : List α} {a : α} (h : Sound pList (before ++ [a])) :
    pList.pTail ≠ lastCell before := by
  rw [h.pTail, lastCell_concat]
  intro heq
  have hmem : a ∈ before := List.mem_of_getLast? (lastCell_eq_node_iff.mp heq.symm)
  exact (List.nodup_append.mp h.linked.nodup).2.2 a hmem a (List.mem_singleton_self a) rfl

/-- The sequence around an index. -/
theorem exists_split {index : ℤ} (hlow : 1 ≤ index) (hhigh : index ≤ nodes.length) :
    ∃ before a after, nodes = before ++ a :: after ∧ index = before.length + 1 ∧
      removeAt nodes index = before ++ after := by
  obtain ⟨k, rfl⟩ : ∃ k : ℕ, index = k + 1 := ⟨(index - 1).toNat, by omega⟩
  have hk : k < nodes.length := by omega
  have hindex : ((k : ℤ) + 1 - 1).toNat = k := by omega
  refine ⟨nodes.take k, nodes[k], nodes.drop (k + 1), ?_, ?_, ?_⟩
  · rw [List.getElem_cons_drop, List.take_append_drop]
  · rw [List.length_take, min_eq_left (Nat.le_of_lt hk)]
  · rw [removeAt, if_neg (by omega), hindex, List.eraseIdx_eq_take_drop_succ]

variable [DecidableEq α]

theorem Sound.insertList {a : α} (h : Sound pList nodes) (ha : a ∉ nodes)
    (hbounded : nodes.length + 1 < 2 ^ 31) :
    Sound (pList.insertList (.node a)) (nodes ++ [a]) := by
  refine ⟨?_, ?_, ?_, ?_⟩
  · rw [CircleList.insertList, h.pTail]
    exact h.linked.insertLast ha
  · rw [lastCell_concat]
    rfl
  · rw [CircleList.insertList, h.count, int_eq (by omega) (by omega), List.length_append]
    rfl
  · simpa using hbounded

/-- A node that is in the list, with the cells around it. -/
theorem Sound.delNodeByIndex {before after : List α} {a : α}
    (h : Sound pList (before ++ a :: after)) :
    pList.delNodeByIndex (before.length + 1) = some { pList with
      next := Function.update pList.next (lastCell before) (pList.next (.node a))
      count := int (pList.count - 1) } := by
  obtain ⟨front, hfront⟩ := exists_cells before
  have hchain := h.linked.cells
  rw [List.map_append, ← List.cons_append, hfront, List.append_assoc] at hchain
  have hlength : front.length = before.length := by
    simpa using (congrArg List.length hfront).symm
  have hloop := delLoop_of_chain hchain .head
  have hturns : ((before.length : ℤ) + 1).toNat = front.length + 1 := by omega
  have hcur : pList.next (lastCell before) = some (.node a) := by
    have hsnd := delLoop_snd hchain (front.length + 1) .head
    rw [hloop] at hsnd
    simpa using hsnd
  rw [CircleList.delNodeByIndex, if_neg (by omega), hturns, hloop, hcur]

/-- An index behind the last node ends in a read through NULL. -/
theorem Sound.delNodeByIndex_of_lt (h : Sound pList nodes) {index : ℤ}
    (hindex : nodes.length < index) : pList.delNodeByIndex index = none := by
  have hsnd := delLoop_snd h.linked.cells index.toNat .head
  rw [List.getElem?_eq_none (by simp; omega)] at hsnd
  rcases hloop : delLoop pList.next index.toNat .head (some .head) with ⟨pre, cur⟩
  rw [hloop] at hsnd
  obtain rfl : cur = none := hsnd
  rw [CircleList.delNodeByIndex, if_neg (by omega), hloop]

theorem sound_clearList {turns : ℕ} {pList' : CircleList α}
    (hclear : pList.clearList turns = some pList') : Sound pList' [] := by
  obtain ⟨freed, -, rfl⟩ := Option.map_eq_some_iff.mp hclear
  exact ⟨.clear pList.next, rfl, rfl, Nat.two_pow_pos 31⟩

/-- `clearList` ends. -/
theorem Sound.exists_clearList (h : Sound pList nodes) :
    ∃ pList', pList.clearList (nodes.length + 1) = some pList' := by
  have hloop := clearLoop_of_chain h.linked.cells
  rw [List.length_cons, List.length_map] at hloop
  exact ⟨_, by rw [CircleList.clearList, hloop]; rfl⟩

/-- After a deletion the list is sound if the node was not the last one; otherwise the pointer to
the last cell is left on the node. -/
theorem Sound.deleted {before after : List α} {a : α} (h : Sound pList (before ++ a :: after))
    (hafter : after ≠ []) :
    Sound { pList with
      next := Function.update pList.next (lastCell before) (pList.next (.node a))
      count := int (pList.count - 1) } (before ++ after) := by
  have hcount := h.count
  have hbounded := h.bounded
  simp only [List.length_append, List.length_cons] at hcount hbounded
  refine ⟨h.linked.unlink, ?_, ?_, ?_⟩
  · have hcons : a :: after = [a] ++ after := rfl
    rw [h.pTail, lastCell_append (by simp), hcons, lastCell_append hafter, lastCell_append hafter]
  · dsimp only
    rw [hcount, int_eq (by omega) (by omega), List.length_append]
    omega
  · rw [List.length_append]
    omega

/-- A deletion, at any index. -/
theorem Sound.delNodeByIndex_iff (h : Sound pList nodes) (index : ℤ) :
    let s' : Pair α := ⟨pList.delNodeByIndex index, removeAt nodes index⟩
    (index < 1 ∨ index < nodes.length → s'.Sound) ∧
      (s'.Refines → index < 1 ∨ index < nodes.length) := by
  intro s'
  by_cases hlow : index < 1
  · have hsame : s' = ⟨some pList, nodes⟩ := by
      simp only [s', CircleList.delNodeByIndex, removeAt, if_pos hlow,
        if_pos (by omega : index ≤ 0)]
    exact ⟨fun _ => hsame ▸ ⟨pList, rfl, h⟩, fun _ => .inl hlow⟩
  by_cases hhigh : index ≤ nodes.length
  · obtain ⟨before, a, after, rfl, rfl, hremove⟩ := exists_split (Int.not_lt.mp hlow) hhigh
    have hdelete := h.delNodeByIndex
    by_cases hafter : after = []
    · subst hafter
      refine ⟨fun hguard => ?_, fun hrefines => ?_⟩
      · simp at hguard
        omega
      · obtain ⟨pList', hpList', hrepresents⟩ := hrefines
        simp only [s', hdelete, hremove, Option.some.injEq] at hpList' hrepresents
        have htail := hrepresents.pTail
        rw [← hpList', List.append_nil] at htail
        exact absurd htail h.pTail_ne
    · refine ⟨fun _ => ⟨_, hdelete, ?_⟩, fun _ => .inr ?_⟩
      · simp only [s', hremove]
        exact h.deleted hafter
      · have hpositive := List.length_pos_iff.mpr hafter
        simp only [List.length_append, List.length_cons]
        omega
  · refine ⟨fun hguard => by omega, fun hrefines => ?_⟩
    obtain ⟨pList', hpList', -⟩ := hrefines
    have hnone : s'.pList = none := h.delNodeByIndex_of_lt (Int.not_le.mp hhigh)
    rw [hnone] at hpList'
    cases hpList'

theorem Sound.represents (h : Sound pList nodes) : Represents pList nodes :=
  ⟨h.count, h.pTail, h.linked.next_lastCell, h.getNodeByIndex,
    _, h.exists_clearList⟩

theorem refines_of_sound {s : Pair α} (h : s.Sound) : s.Refines := by
  obtain ⟨pList, hpList, hsound⟩ := h
  exact ⟨pList, hpList, hsound.represents⟩

/-! ## All sequences of calls -/

theorem sound_callStep (s : Pair α) (call : Call α) (s' : Pair α) (h : s.Sound)
    (hguard : KeepsLast s call) (hstep : callStep s call = some s') : s'.Sound := by
  obtain ⟨pList, hpList, hsound⟩ := h
  simp only [callStep, hpList, Option.bind_some] at hstep
  cases call with
  | insertList pInsertNode =>
      obtain ⟨hnew, hstep⟩ := Option.ite_none_left_eq_some.mp hstep
      obtain rfl := Option.some.inj hstep
      exact ⟨_, rfl, hsound.insertList hnew hguard⟩
  | delNodeByIndex index =>
      obtain rfl := Option.some.inj hstep
      exact (hsound.delNodeByIndex_iff index).1 hguard
  | clearList turns =>
      obtain ⟨pList', hclear, rfl⟩ := Option.map_eq_some_iff.mp hstep
      exact ⟨pList', rfl, sound_clearList hclear⟩

theorem refines_iff_of_sound (s : Pair α) (call : Call α) (s' : Pair α) (h : s.Sound)
    (hstep : callStep s call = some s') : s'.Refines ↔ KeepsLast s call := by
  refine ⟨fun hrefines => ?_, fun hguard =>
    refines_of_sound (sound_callStep s call s' h hguard hstep)⟩
  obtain ⟨pList, hpList, hsound⟩ := h
  simp only [callStep, hpList, Option.bind_some] at hstep
  cases call with
  | insertList pInsertNode =>
      obtain ⟨-, hstep⟩ := Option.ite_none_left_eq_some.mp hstep
      obtain rfl := Option.some.inj hstep
      obtain ⟨pList', hpList', hrepresents⟩ := hrefines
      obtain rfl := Option.some.inj hpList'
      have hcount := hrepresents.count
      have hbound := int_lt (pList.count + 1)
      simp only [CircleList.insertList] at hcount
      rw [hcount, List.length_append, List.length_singleton] at hbound
      exact_mod_cast hbound
  | delNodeByIndex index =>
      obtain rfl := Option.some.inj hstep
      exact (hsound.delNodeByIndex_iff index).2 hrefines
  | clearList turns => trivial

/-- A list represents its sequence after every call exactly if no call deletes the last node or
takes an index behind it, and the count stays an `int`. -/
theorem everyState_refines_iff (calls : List (Call α)) :
    EveryState callStep Pair.Refines .start calls ↔ EveryStep callStep KeepsLast .start calls :=
  everyState_iff_everyStep sound_callStep refines_iff_of_sound sound_start
    (refines_of_sound sound_start)

/-- The only node is deleted, and the pointer to the last cell stays on it. -/
theorem not_everyState_refines :
    ¬ ∀ calls : List (Call ℕ), EveryState callStep Pair.Refines .start calls := by
  intro h
  have hrun : run callStep (Pair.start : Pair ℕ) [.insertList 7, .delNodeByIndex 1] =
      some ⟨some ⟨_, .node 7, 0⟩, []⟩ := rfl
  obtain ⟨pList, hpList, hrepresents⟩ := (h _).last hrun
  have htail := hrepresents.pTail
  rw [← Option.some.inj hpList] at htail
  cases htail

end

end CircleList

end ChatRoom
