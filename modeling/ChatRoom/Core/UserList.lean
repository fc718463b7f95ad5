import ChatRoom.Support.CString
import Mathlib.Data.List.Basic

/-!
# The list of online users

The chain of `linklist.c`, from the node after the head.  A node stands for one
connected client: its user name and the descriptor of its socket.  The program
has one such list, `g_pList`.
-/

namespace ChatRoom

open CString

/-- `Linklist`, without the link. -/
structure Node where
  name : CStr
  sfd : ℕ
deriving DecidableEq

/-- `g_pList`: the nodes from `head->next` on. -/
abbrev Linklist := List Node

/-- `insertNode`: the new node becomes the first one. -/
def insertNode (head : Linklist) (name : CStr) (sfd : ℕ) : Linklist :=
  ⟨name, sfd⟩ :: head

/-- `delNode`: the first node with the name is unlinked, if there is one. -/
def delNode : Linklist → CStr → Linklist
  | [], _ => []
  | p :: rest, name => if p.name = name then rest else p :: delNode rest name

/-- `searchName`: the first node with the name, if there is one. -/
def searchName : Linklist → CStr → Option Node
  | [], _ => none
  | p :: rest, name => if p.name = name then some p else searchName rest name

theorem searchName_eq_find? (head : Linklist) (name : CStr) :
    searchName head name = head.find? (·.name = name) := by
  induction head with
  | nil => rfl
  | cons p rest ih => by_cases h : p.name = name <;> simp [searchName, h, ih]

theorem delNode_eq_eraseP (head : Linklist) (name : CStr) :
    delNode head name = head.eraseP (·.name = name) := by
  induction head with
  | nil => rfl
  | cons p rest ih => by_cases h : p.name = name <;> simp [delNode, h, ih]

theorem name_of_searchName {head : Linklist} {name : CStr} {p : Node}
    (h : searchName head name = some p) : p.name = name := by
  rw [searchName_eq_find?] at h
  simpa using List.find?_some h

theorem mem_of_searchName {head : Linklist} {name : CStr} {p : Node}
    (h : searchName head name = some p) : p ∈ head := by
  rw [searchName_eq_find?] at h
  exact List.mem_of_find?_eq_some h

/-- A name is found exactly if some node carries it. -/
theorem searchName_eq_none_iff {head : Linklist} {name : CStr} :
    searchName head name = none ↔ ∀ p ∈ head, p.name ≠ name := by
  simp [searchName_eq_find?]

theorem delNode_sublist (head : Linklist) (name : CStr) :
    (delNode head name).Sublist head := by
  rw [delNode_eq_eraseP]
  exact List.eraseP_sublist

/-- `delNode` removes the very node that `searchName` finds. -/
theorem delNode_eq_erase {head : Linklist} {name : CStr} {p : Node}
    (h : searchName head name = some p) : delNode head name = head.erase p := by
  induction head with
  | nil => simp [searchName] at h
  | cons q rest ih =>
      by_cases hq : q.name = name
      · have hqp : q = p := by simpa [searchName, hq] using h
        subst hqp
        rw [delNode, if_pos hq, List.erase_cons_head]
      · have hne : q ≠ p := fun e => hq (e ▸ name_of_searchName h)
        rw [searchName, if_neg hq] at h
        rw [delNode, if_neg hq, ih h, List.erase_cons_tail (by simpa using hne)]

/-- In a list of different names, `delNode` leaves no node of the name. -/
theorem name_ne_of_mem_delNode {head : Linklist} {name : CStr} {p : Node}
    (hnames : (head.map Node.name).Nodup) (hp : p ∈ delNode head name) : p.name ≠ name := by
  induction head with
  | nil => exact absurd hp List.not_mem_nil
  | cons q rest ih =>
      obtain ⟨hq, hrest⟩ := List.nodup_cons.mp hnames
      by_cases hname : q.name = name
      · rw [delNode, if_pos hname] at hp
        rw [← hname]
        exact fun heq => hq (heq ▸ List.mem_map_of_mem hp)
      · rw [delNode, if_neg hname] at hp
        rcases List.mem_cons.mp hp with rfl | hp
        · exact hname
        · exact ih hrest hp

/-! ## The nodes of one name -/

/-- The descriptors under a name, in the order of the list. -/
def descriptors (head : Linklist) (name : CStr) : List ℕ :=
  (head.filter (·.name = name)).map Node.sfd

theorem sfd_searchName (head : Linklist) (name : CStr) :
    (searchName head name).map Node.sfd = (descriptors head name).head? := by
  rw [searchName_eq_find?, descriptors, List.head?_map, List.head?_filter]

theorem descriptors_insertNode (head : Linklist) (name other : CStr) (sfd : ℕ) :
    descriptors (insertNode head name sfd) other =
      if other = name then sfd :: descriptors head other else descriptors head other := by
  by_cases h : other = name
  · simp [descriptors, insertNode, h]
  · simp [descriptors, insertNode, h, Ne.symm h]

/-- A deletion takes the first node of the name. -/
theorem descriptors_delNode (head : Linklist) (name other : CStr) :
    descriptors (delNode head name) other =
      if other = name then (descriptors head other).tail else descriptors head other := by
  induction head with
  | nil => simp [delNode, descriptors]
  | cons p rest ih =>
      by_cases hp : p.name = name
      · by_cases hother : other = name
        · simp [delNode, descriptors, hp, hother]
        · simp [delNode, descriptors, hp, hother, Ne.symm hother]
      · rw [delNode, if_neg hp]
        by_cases hother : other = name
        · have hne : p.name ≠ other := fun heq => hp (heq.trans hother)
          simpa [descriptors, hne, hother, hp] using ih
        · by_cases hpo : p.name = other
          · simpa [descriptors, hpo, hother] using ih
          · simpa [descriptors, hpo, hother] using ih

end ChatRoom
