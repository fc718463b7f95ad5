import ChatRoom.Core.UserList
import ChatRoom.Support.LinkedList
import ChatRoom.Support.StepSystem

/-!
# The list of online users in memory

`linklist.c` cell by cell: the head, the nodes that are allocated, and their fields.  The loops go
along the chain with a second pointer behind.  What is read along the chain is the list of
`Core.UserList`, and of every name it is a stack of descriptors, as long as each name inserted fits
its array.
-/

namespace ChatRoom

open CString LinkedQueue LinkedList StepSystem

/-! ## The functions -/

/-- The head cell and the nodes in memory. -/
structure UserMemory (α : Type) where
  next : Cell α → Option (Cell α)
  name : Cell α → CharArray 64
  sfd : Cell α → ℕ
  /-- The nodes that `malloc` has given out and that are not freed. -/
  live : List α

namespace UserMemory

variable {α : Type}

/-- `calloc` has filled the head with zeros; of the other cells nothing is used. -/
def createList : UserMemory α := ⟨fun _ => none, fun _ => CharArray.zero 64, fun _ => 0, []⟩

/-- The string at `name`; without a terminator in the array it goes on into `sfd`. -/
def nameStr (m : UserMemory α) (p : Cell α) : CStr :=
  cstr ((m.name p).bytes ++ le32 (BitVec.ofNat 32 (m.sfd p)))

/-- The loop of `searchName`, if it ends within so many turns. -/
def searchLoop (m : UserMemory α) (name : CStr) : ℕ → Option (Cell α) → Option (Option (Cell α))
  | _, none => some none
  | 0, some _ => none
  | n + 1, some p => if m.nameStr p = name then some (some p) else searchLoop m name n (m.next p)

def searchName (m : UserMemory α) (turns : ℕ) (name : CStr) : Option (Option (Cell α)) :=
  m.searchLoop name turns (m.next .head)

/-- The loop of `delNode`, if it ends within so many turns: `pre` and `p` at its end. -/
def delLoop (m : UserMemory α) (name : CStr) :
    ℕ → Cell α → Option (Cell α) → Option (Cell α × Option (Cell α))
  | _, pre, none => some (pre, none)
  | 0, _, some _ => none
  | n + 1, pre, some p =>
      if m.nameStr p = name then some (pre, some p) else delLoop m name n p (m.next p)

/-- `insertNode`, with the node that `malloc` gives.  What `strcpy` writes behind the array is
overwritten by the members set after it. -/
def insertNode [DecidableEq α] (m : UserMemory α) (newNode : α) (name : CStr) (sfd : ℕ) :
    UserMemory α where
  next := Function.update (Function.update m.next (.node newNode) (m.next .head)) .head
    (some (.node newNode))
  name := Function.update m.name (.node newNode) ((m.name (.node newNode)).strcpy name)
  sfd := Function.update m.sfd (.node newNode) sfd
  live := newNode :: m.live

def free [DecidableEq α] (m : UserMemory α) : Cell α → UserMemory α
  | .head => m
  | .node a => { m with live := m.live.erase a }

/-- The end of `delNode`, with `pre` and `p`. -/
def unlink [DecidableEq α] (m : UserMemory α) : Cell α × Option (Cell α) → UserMemory α
  | (_, none) => m
  | (pre, some p) => { m with next := Function.update m.next pre (m.next p) }.free p

def delNode [DecidableEq α] (m : UserMemory α) (turns : ℕ) (name : CStr) : Option (UserMemory α) :=
  (m.delLoop name turns .head (m.next .head)).map m.unlink

/-! ## Calls beside stacks -/

inductive Call (α : Type) where
  | insertNode (newNode : α) (name : CStr) (sfd : ℕ)
  | delNode (turns : ℕ) (name : CStr)

def Call.name : Call α → CStr
  | insertNode _ name _ => name
  | delNode _ name => name

/-- A name to be inserted fits `name` with its terminator. -/
def Call.Fits : Call α → Prop
  | insertNode _ name _ => name.strlen ≤ 63
  | delNode _ _ => True

instance : (call : Call α) → Decidable call.Fits
  | .insertNode _ name _ => inferInstanceAs (Decidable (name.strlen ≤ 63))
  | .delNode _ _ => isTrue trivial

/-- The list, and for every name the descriptors whose insertion has not been cancelled, the most
recent one first. -/
structure Pair (α : Type) where
  memory : UserMemory α
  stackOf : CStr → List ℕ

def Pair.start : Pair α := ⟨createList, fun _ => []⟩

/-- One call.  `malloc` gives a node that is not in use. -/
def callStep [DecidableEq α] (s : Pair α) : Call α → Option (Pair α)
  | .insertNode newNode name sfd =>
      if newNode ∈ s.memory.live then none
      else some ⟨s.memory.insertNode newNode name sfd,
        Function.update s.stackOf name (sfd :: s.stackOf name)⟩
  | .delNode turns name =>
      (s.memory.delNode turns name).map fun memory =>
        ⟨memory, Function.update s.stackOf name (s.stackOf name).tail⟩

/-- `searchName` ends, and finds a node with the name and the descriptor on the top of its stack, or
none if the stack is empty; and `delNode` ends. -/
structure Pair.FindsTop [DecidableEq α] (s : Pair α) : Prop where
  top : ∀ name, ∃ turns found, s.memory.searchName turns name = some found ∧
    found.map s.memory.sfd = (s.stackOf name).head? ∧ ∀ p ∈ found, s.memory.nameStr p = name
  ends : ∀ name, ∃ turns memory, s.memory.delNode turns name = some memory

/-- The nodes under other names, in their order, with their fields. -/
def otherNodes (m : UserMemory α) (nodes : List α) (name : CStr) : List (α × CStr × ℕ) :=
  (nodes.map fun a => (a, m.nameStr (.node a), m.sfd (.node a))).filter (·.2.1 ≠ name)

/-- The call leaves the nodes under other names alone, and a deletion of an absent name
everything. -/
def Undisturbed [DecidableEq α] (s : Pair α) (call : Call α) : Prop :=
  ∀ s', callStep s call = some s' →
    ∃ nodes nodes', Linked s.memory.next nodes ∧ Linked s'.memory.next nodes' ∧
      s'.memory.otherNodes nodes' call.name = s.memory.otherNodes nodes call.name ∧
        ∀ turns, call = .delNode turns call.name →
          (∀ a ∈ nodes, s.memory.nameStr (.node a) ≠ call.name) → s'.memory = s.memory

/-! ## The loops on a chain -/

/-- What is read along the nodes. -/
def users (m : UserMemory α) (nodes : List α) : Linklist :=
  nodes.map fun a => ⟨m.nameStr (.node a), m.sfd (.node a)⟩

section
variable {m : UserMemory α} {name : CStr} {nodes : List α} {p : Option (Cell α)}

/-- `searchName` goes along the same nodes as `delNode`. -/
theorem searchLoop_eq_delLoop (m : UserMemory α) (name : CStr) (turns : ℕ) (pre : Cell α)
    (p : Option (Cell α)) :
    m.searchLoop name turns p = (m.delLoop name turns pre p).map Prod.snd := by
  induction turns generalizing pre p with
  | zero => cases p <;> rfl
  | succ n ih =>
      rcases p with - | p
      · rfl
      · by_cases h : m.nameStr p = name
        · simp [searchLoop, delLoop, h]
        · simp [searchLoop, delLoop, h, ih p]

/-- The loop ends within as many turns as there are nodes. -/
theorem exists_delLoop (h : Chain m.next p (nodes.map .node)) (pre : Cell α) :
    ∃ r, m.delLoop name nodes.length pre p = some r := by
  induction nodes generalizing pre p with
  | nil =>
      obtain rfl : p = none := h
      exact ⟨_, rfl⟩
  | cons a nodes ih =>
      obtain ⟨rfl, hrest⟩ := h
      by_cases ha : m.nameStr (.node a) = name
      · exact ⟨(pre, some (.node a)), by simp [delLoop, ha]⟩
      · obtain ⟨r, hr⟩ := ih hrest (.node a)
        exact ⟨r, by simpa [delLoop, ha] using hr⟩

/-- The loop stops at the first node with the name and the cell before it, or at the end. -/
theorem delLoop_of_chain (h : Chain m.next p (nodes.map .node)) {turns : ℕ} {pre : Cell α}
    {r : Cell α × Option (Cell α)} (hloop : m.delLoop name turns pre p = some r) :
    (r.2 = none ∧ ∀ a ∈ nodes, m.nameStr (.node a) ≠ name) ∨
      ∃ before a after, nodes = before ++ a :: after ∧ (∀ b ∈ before, m.nameStr (.node b) ≠ name) ∧
        m.nameStr (.node a) = name ∧ r = (before.getLast?.elim pre .node, some (.node a)) := by
  induction nodes generalizing turns pre p with
  | nil =>
      obtain rfl : p = none := h
      have hr : (pre, none) = r := by
        cases turns <;> exact Option.some.inj hloop
      exact .inl ⟨hr ▸ rfl, fun _ ha => absurd ha List.not_mem_nil⟩
  | cons a nodes ih =>
      obtain ⟨rfl, hrest⟩ := h
      rcases turns with - | turns
      · cases hloop
      · by_cases ha : m.nameStr (.node a) = name
        · simp only [delLoop, ha, if_true, Option.some.injEq] at hloop
          exact .inr ⟨[], a, nodes, rfl, fun _ hb => absurd hb List.not_mem_nil, ha, hloop.symm⟩
        · simp only [delLoop, ha, if_false] at hloop
          obtain ⟨hnone, hall⟩ | ⟨before, b, after, rfl, hbefore, hb, rfl⟩ := ih hrest hloop
          · exact .inl ⟨hnone, List.forall_mem_cons.mpr ⟨ha, hall⟩⟩
          · refine .inr ⟨a :: before, b, after, rfl, List.forall_mem_cons.mpr ⟨ha, hbefore⟩, hb, ?_⟩
            cases hlast : before.getLast? <;> simp [List.getLast?_cons, hlast]

/-- The list-level functions on the same split. -/
theorem users_split {before : List α} (after : List α) {a : α}
    (hbefore : ∀ b ∈ before, m.nameStr (.node b) ≠ name) (ha : m.nameStr (.node a) = name) :
    ChatRoom.searchName (m.users (before ++ a :: after)) name =
        some ⟨m.nameStr (.node a), m.sfd (.node a)⟩ ∧
      ChatRoom.delNode (m.users (before ++ a :: after)) name = m.users (before ++ after) := by
  induction before with
  | nil => simp [users, ChatRoom.searchName, ChatRoom.delNode, ha]
  | cons b before ih =>
      obtain ⟨hb, hrest⟩ := List.forall_mem_cons.mp hbefore
      obtain ⟨hsearch, hdelete⟩ := ih hrest
      refine ⟨?_, ?_⟩
      · simpa [users, ChatRoom.searchName, hb] using hsearch
      · simpa [users, ChatRoom.delNode, hb] using hdelete

end

/-! ## The invariant -/

/-- The nodes of the chain are allocated, and under every name they carry its stack. -/
structure Holds (s : Pair α) (nodes : List α) : Prop where
  linked : Linked s.memory.next nodes
  live : ∀ a ∈ nodes, a ∈ s.memory.live
  stackOf : ∀ name, s.stackOf name = descriptors (s.memory.users nodes) name

theorem holds_start : Holds (Pair.start : Pair α) [] :=
  ⟨.nil, fun _ ha => ha, fun _ => rfl⟩

/-- The two outcomes of a loop over the list. -/
theorem Holds.delLoop {s : Pair α} {nodes : List α} (h : Holds s nodes) {name : CStr} {turns : ℕ}
    {r : Cell α × Option (Cell α)}
    (hloop : s.memory.delLoop name turns .head (s.memory.next .head) = some r) :
    (r.2 = none ∧ ∀ a ∈ nodes, s.memory.nameStr (.node a) ≠ name) ∨
      ∃ before a after, nodes = before ++ a :: after ∧
        (∀ b ∈ before, s.memory.nameStr (.node b) ≠ name) ∧ s.memory.nameStr (.node a) = name ∧
          r = (lastCell before, some (.node a)) :=
  delLoop_of_chain h.linked.chain hloop

/-- Without a node of the name the stack is empty. -/
theorem Holds.stackOf_eq_nil {s : Pair α} {nodes : List α} (h : Holds s nodes) {name : CStr}
    (hnone : ∀ a ∈ nodes, s.memory.nameStr (.node a) ≠ name) : s.stackOf name = [] := by
  rw [h.stackOf, descriptors, List.filter_eq_nil_iff.mpr, List.map_nil]
  intro p hp
  obtain ⟨a, ha, rfl⟩ := List.mem_map.mp hp
  simpa using hnone a ha

/-- The nodes of other names, before and after a node of the name. -/
theorem otherNodes_split {m : UserMemory α} {name : CStr} {before after : List α} {a : α}
    (ha : m.nameStr (.node a) = name) :
    m.otherNodes (before ++ a :: after) name = m.otherNodes (before ++ after) name := by
  simp [otherNodes, ha]

section
variable [DecidableEq α] {s s' : Pair α} {nodes : List α}

theorem Holds.findsTop (h : Holds s nodes) : s.FindsTop := by
  have hends : ∀ name, ∃ r,
      s.memory.delLoop name nodes.length .head (s.memory.next .head) = some r :=
    fun name => exists_delLoop h.linked.chain .head
  refine ⟨fun name => ?_, fun name => ?_⟩
  · obtain ⟨r, hloop⟩ := hends name
    refine ⟨nodes.length, r.2, ?_, ?_⟩
    · rw [searchName, searchLoop_eq_delLoop _ _ _ .head, hloop, Option.map_some]
    · obtain ⟨hfound, hnone⟩ | ⟨before, a, after, rfl, hbefore, ha, rfl⟩ := h.delLoop hloop
      · rw [hfound, h.stackOf_eq_nil hnone]
        exact ⟨rfl, fun _ hp => by cases hp⟩
      · have hsearch := (users_split after hbefore ha).1
        rw [h.stackOf, ← sfd_searchName, hsearch]
        exact ⟨rfl, fun p hp => Option.some.inj hp ▸ ha⟩
  · obtain ⟨r, hloop⟩ := hends name
    exact ⟨nodes.length, s.memory.unlink r, by rw [UserMemory.delNode, hloop, Option.map_some]⟩

/-- The new node has the name and the descriptor. -/
theorem fields_insertNode_self (m : UserMemory α) (a : α) {name : CStr}
    (hname : name.strlen ≤ 63) (sfd : ℕ) :
    (m.insertNode a name sfd).nameStr (.node a) = name ∧
      (m.insertNode a name sfd).sfd (.node a) = sfd := by
  obtain ⟨rest, hrest⟩ := (m.name (.node a)).holds_strcpy (Nat.lt_succ_of_le hname)
  refine ⟨?_, Function.update_self ..⟩
  rw [nameStr, insertNode]
  simp only [Function.update_self]
  rw [← hrest, List.append_assoc, List.append_assoc]
  exact cstr_append_zero name _

/-- A new node is not in the list, and the others keep their fields. -/
theorem fields_insertNode (m : UserMemory α) {a b : α} (ha : a ∉ nodes) (hb : b ∈ nodes)
    (name : CStr) (sfd : ℕ) :
    (m.insertNode a name sfd).nameStr (.node b) = m.nameStr (.node b) ∧
      (m.insertNode a name sfd).sfd (.node b) = m.sfd (.node b) := by
  have hne : Cell.node b ≠ Cell.node a := fun heq => ha (Cell.node.inj heq ▸ hb)
  have hsfd : (m.insertNode a name sfd).sfd (.node b) = m.sfd (.node b) :=
    Function.update_of_ne hne ..
  have hname : (m.insertNode a name sfd).name (.node b) = m.name (.node b) :=
    Function.update_of_ne hne ..
  exact ⟨by rw [nameStr, hname, hsfd]; rfl, hsfd⟩

theorem users_insertNode (m : UserMemory α) {a : α} (ha : a ∉ nodes) {name : CStr}
    (hname : name.strlen ≤ 63) (sfd : ℕ) :
    (m.insertNode a name sfd).users (a :: nodes) =
      ChatRoom.insertNode (m.users nodes) name sfd := by
  have hrest : (m.insertNode a name sfd).users nodes = m.users nodes :=
    List.map_congr_left fun b hb => by
      obtain ⟨hold, hsfd⟩ := fields_insertNode m ha hb name sfd
      rw [hold, hsfd]
  obtain ⟨hnew, hsfd⟩ := fields_insertNode_self m a hname sfd
  rw [ChatRoom.insertNode, ← hrest, users, List.map_cons, hnew, hsfd]
  rfl

theorem otherNodes_insertNode (m : UserMemory α) {a : α} (ha : a ∉ nodes) {name : CStr}
    (hname : name.strlen ≤ 63) (sfd : ℕ) :
    (m.insertNode a name sfd).otherNodes (a :: nodes) name = m.otherNodes nodes name := by
  have hrest : (nodes.map fun b => (b, (m.insertNode a name sfd).nameStr (.node b),
      (m.insertNode a name sfd).sfd (.node b))) =
        nodes.map fun b => (b, m.nameStr (.node b), m.sfd (.node b)) :=
    List.map_congr_left fun b hb => by
      obtain ⟨hold, hsfd⟩ := fields_insertNode m ha hb name sfd
      rw [hold, hsfd]
  rw [otherNodes, List.map_cons, hrest, List.filter_cons_of_neg]
  · rfl
  · simp [fields_insertNode_self m a hname sfd]

theorem Holds.insertNode {a : α} {name : CStr} {sfd : ℕ} (h : Holds s nodes)
    (hname : name.strlen ≤ 63) (hstep : callStep s (.insertNode a name sfd) = some s') :
    Holds s' (a :: nodes) ∧
      s'.memory.otherNodes (a :: nodes) name = s.memory.otherNodes nodes name := by
  obtain ⟨hfresh, hstep⟩ := Option.ite_none_left_eq_some.mp hstep
  obtain rfl := Option.some.inj hstep
  have ha : a ∉ nodes := fun hmem => hfresh (h.live a hmem)
  refine ⟨⟨h.linked.insertFirst ha, fun b hb => ?_, fun other => ?_⟩,
    otherNodes_insertNode s.memory ha hname sfd⟩
  · rcases List.mem_cons.mp hb with rfl | hb
    · exact List.mem_cons_self
    · exact List.mem_cons_of_mem a (h.live b hb)
  · rw [users_insertNode s.memory ha hname, descriptors_insertNode, ← h.stackOf other]
    change Function.update s.stackOf name (sfd :: s.stackOf name) other = _
    by_cases hother : other = name
    · subst hother
      rw [Function.update_self, if_pos rfl]
    · rw [Function.update_of_ne hother, if_neg hother]

theorem Holds.delNode {turns : ℕ} {name : CStr} (h : Holds s nodes)
    (hstep : callStep s (.delNode turns name) = some s') :
    ∃ nodes', Holds s' nodes' ∧
      s'.memory.otherNodes nodes' name = s.memory.otherNodes nodes name ∧
        ((∀ a ∈ nodes, s.memory.nameStr (.node a) ≠ name) → s'.memory = s.memory) := by
  obtain ⟨memory, hdelete, rfl⟩ := Option.map_eq_some_iff.mp hstep
  obtain ⟨⟨pre, found⟩, hloop, rfl⟩ := Option.map_eq_some_iff.mp hdelete
  obtain ⟨hfound, hnone⟩ | ⟨before, a, after, rfl, hbefore, ha, hr⟩ := h.delLoop hloop
  · obtain rfl : found = none := hfound
    refine ⟨nodes, ⟨h.linked, h.live, fun other => ?_⟩, rfl, fun _ => rfl⟩
    change Function.update s.stackOf name (s.stackOf name).tail other = _
    rw [h.stackOf_eq_nil hnone, List.tail_nil, ← h.stackOf_eq_nil hnone, Function.update_eq_self]
    exact h.stackOf other
  · obtain ⟨rfl, rfl⟩ := Prod.mk.inj hr
    refine ⟨before ++ after, ⟨h.linked.unlink, fun b hb => ?_, fun other => ?_⟩,
      (otherNodes_split ha).symm, fun hnone => absurd ha (hnone a (by simp))⟩
    · have hnodup := h.linked.nodup
      have hne : b ≠ a := by
        rintro rfl
        rw [List.nodup_middle] at hnodup
        exact (List.nodup_cons.mp hnodup).1 hb
      refine (List.mem_erase_of_ne hne).mpr (h.live b ?_)
      simp only [List.mem_append, List.mem_cons] at hb ⊢
      tauto
    · have hlist := (users_split after hbefore ha).2
      have hdescriptors := descriptors_delNode (s.memory.users (before ++ a :: after)) name other
      rw [hlist] at hdescriptors
      refine Eq.trans ?_ hdescriptors.symm
      change Function.update s.stackOf name (s.stackOf name).tail other = _
      by_cases hother : other = name
      · subst hother
        rw [Function.update_self, if_pos rfl, h.stackOf]
      · rw [Function.update_of_ne hother, if_neg hother, h.stackOf]

/-! ## All sequences of calls -/

def Pair.Consistent (s : Pair α) : Prop := ∃ nodes, Holds s nodes

theorem consistent_callStep (s : Pair α) (call : Call α) (s' : Pair α) (h : s.Consistent)
    (hfits : call.Fits) (hstep : callStep s call = some s') : s'.Consistent := by
  obtain ⟨nodes, h⟩ := h
  cases call with
  | insertNode newNode name sfd => exact ⟨_, (h.insertNode hfits hstep).1⟩
  | delNode turns name =>
      obtain ⟨nodes', h', -⟩ := h.delNode hstep
      exact ⟨nodes', h'⟩

theorem undisturbed_of_consistent {s : Pair α} (h : s.Consistent) {call : Call α}
    (hfits : call.Fits) : Undisturbed s call := by
  intro s' hstep
  obtain ⟨nodes, h⟩ := h
  cases call with
  | insertNode newNode name sfd =>
      obtain ⟨h', hothers⟩ := h.insertNode hfits hstep
      exact ⟨nodes, newNode :: nodes, h.linked, h'.linked, hothers, fun _ hcall => by cases hcall⟩
  | delNode turns name =>
      obtain ⟨nodes', h', hothers, habsent⟩ := h.delNode hstep
      exact ⟨nodes, nodes', h.linked, h'.linked, hothers, fun _ _ => habsent⟩

/-- After any calls with names that fit, a search finds the top of the stack of its name; and no
call disturbs the nodes under other names. -/
theorem userList_stacks {calls : List (Call α)} (hfits : ∀ call ∈ calls, call.Fits) :
    EveryState callStep Pair.FindsTop .start calls ∧ EveryStep callStep Undisturbed .start calls :=
  have hstart : (Pair.start : Pair α).Consistent := ⟨[], holds_start⟩
  have hguard := everyStep_of_forall_mem callStep (.start : Pair α) hfits
  ⟨everyState_of_guarded consistent_callStep (fun _ ⟨_, h⟩ => h.findsTop) hstart hguard,
    everyStep_of_guarded consistent_callStep
      (fun _ _ _ h hcall _ => undisturbed_of_consistent h hcall) hstart hguard⟩

end

/-- Three users, two of the same name, and one who leaves. -/
def fittingCalls : List (Call ℕ) :=
  [.insertNode 0 (lit "bob") 4, .insertNode 1 (lit "alice") 5, .insertNode 2 (lit "bob") 6,
    .delNode 3 (lit "bob")]

theorem userList_stacks_bob :
    (EveryState callStep Pair.FindsTop .start fittingCalls ∧
        EveryStep callStep Undisturbed .start fittingCalls) ∧
      ∃ s, run callStep .start fittingCalls = some s ∧
        s.memory.searchName 3 (lit "bob") = some (some (.node 0)) ∧
        s.stackOf (lit "bob") = [4] := by
  have hfits : ∀ call ∈ fittingCalls, call.Fits := by decide
  have hfound : (run callStep .start fittingCalls).map (fun s =>
      (s.memory.searchName 3 (lit "bob"), s.stackOf (lit "bob"))) =
        some (some (some (.node 0)), [4]) := by
    decide +kernel
  obtain ⟨s, hrun, hs⟩ := Option.map_eq_some_iff.mp hfound
  obtain ⟨hsearch, hstack⟩ := Prod.mk.inj hs
  exact ⟨userList_stacks hfits, s, hrun, hsearch, hstack⟩

/-- A name of 64 bytes. -/
def longName : CStr := cstr (List.replicate 64 97)

/-- Such a name is read with the descriptor behind it, and so it is not found. -/
theorem not_userList_stacks :
    ¬ ∀ calls : List (Call ℕ), EveryState callStep Pair.FindsTop .start calls ∧
      EveryStep callStep Undisturbed .start calls := by
  intro h
  let memory : UserMemory ℕ := createList.insertNode 0 longName 4
  have hrun : run callStep .start [Call.insertNode 0 longName 4] =
      some ⟨memory, Function.update (fun _ => []) longName [4]⟩ := rfl
  have hnone : ∀ p, memory.nameStr p ≠ longName := by
    intro p
    by_cases hp : p = .node 0
    · subst hp
      decide +kernel
    · have hname : memory.name p = CharArray.zero 64 := Function.update_of_ne hp ..
      have hsfd : memory.sfd p = 0 := Function.update_of_ne hp ..
      rw [nameStr, hname, hsfd]
      decide +kernel
  obtain ⟨turns, found, -, htop, hfound⟩ := ((h _).1.last hrun).top longName
  simp only [Function.update_self, List.head?_cons] at htop
  obtain ⟨p, hp, -⟩ := Option.map_eq_some_iff.mp htop
  exact hnone p (hfound p hp)

end UserMemory

end ChatRoom
