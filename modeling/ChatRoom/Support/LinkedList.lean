import ChatRoom.Support.LinkedQueue

/-!
# Singly linked lists with a head cell

The head is a cell without data that is always there, so that the cell before a node is a cell in
every case.  The rules say what becomes of the nodes when one is linked behind the head or behind
the last node, and when one is unlinked from the cell before it.
-/

namespace LinkedList

open LinkedQueue

variable {α : Type*}

/-- The cells of a list: the head and the nodes. -/
inductive Cell (α : Type*) where
  | head
  | node (a : α)
deriving DecidableEq

/-- The nodes of a list in order. -/
structure Linked (next : Cell α → Option (Cell α)) (nodes : List α) : Prop where
  chain : Chain next (next .head) (nodes.map .node)
  nodup : nodes.Nodup

/-- The last node, or the head if there is none. -/
def lastCell (nodes : List α) : Cell α := nodes.getLast?.elim .head .node

@[simp] theorem lastCell_nil : lastCell ([] : List α) = .head := rfl

@[simp] theorem lastCell_concat (nodes : List α) (a : α) : lastCell (nodes ++ [a]) = .node a := by
  simp [lastCell]

theorem lastCell_append {before after : List α} (h : after ≠ []) :
    lastCell (before ++ after) = lastCell after := by
  rw [lastCell, lastCell, List.getLast?_append_of_ne_nil before h]

theorem lastCell_eq_node_iff {nodes : List α} {a : α} :
    lastCell nodes = .node a ↔ nodes.getLast? = some a := by
  rcases h : nodes.getLast? with - | b <;> simp [lastCell, h]

/-- The cells of a list end with its last cell. -/
theorem exists_cells (nodes : List α) :
    ∃ cells, Cell.head :: nodes.map .node = cells ++ [lastCell nodes] := by
  rcases List.eq_nil_or_concat nodes with rfl | ⟨before, a, rfl⟩
  · exact ⟨[], rfl⟩
  · exact ⟨.head :: before.map .node, by simp⟩

variable {next : Cell α → Option (Cell α)} {nodes : List α}

/-- The list from its head cell. -/
theorem Linked.cells (h : Linked next nodes) :
    Chain next (some .head) (.head :: nodes.map .node) := ⟨rfl, h.chain⟩

theorem nodup_cells (h : nodes.Nodup) : (Cell.head :: nodes.map Cell.node).Nodup := by
  refine List.nodup_cons.mpr ⟨by simp, h.map fun a b hab => ?_⟩
  exact Cell.node.inj hab

theorem Linked.next_lastCell (h : Linked next nodes) : next (lastCell nodes) = none := by
  obtain ⟨cells, hcells⟩ := exists_cells nodes
  refine h.cells.next_last ?_
  rw [hcells, List.getLast?_append]
  rfl

theorem Linked.nil : Linked (fun _ : Cell α => none) [] := ⟨rfl, List.nodup_nil⟩

section
variable [DecidableEq α]

/-- Without a link from the head there is no node. -/
theorem Linked.clear (next : Cell α → Option (Cell α)) :
    Linked (Function.update next .head none) [] :=
  ⟨by simp [Chain], List.nodup_nil⟩

/-- A node is linked behind the head. -/
theorem Linked.insertFirst {a : α} (h : Linked next nodes) (ha : a ∉ nodes) :
    Linked (Function.update (Function.update next (.node a) (next .head)) .head (some (.node a)))
      (a :: nodes) := by
  have hhead : Cell.head ∉ nodes.map Cell.node := by simp
  have hnode : Cell.node a ∉ nodes.map Cell.node := by simpa using ha
  refine ⟨⟨Function.update_self Cell.head _ _, ?_⟩, List.nodup_cons.mpr ⟨ha, h.nodup⟩⟩
  rw [Function.update_of_ne (by simp), Function.update_self]
  exact (h.chain.update hnode).update hhead

/-- A node is linked behind the last cell. -/
theorem Linked.insertLast {a : α} (h : Linked next nodes) (ha : a ∉ nodes) :
    Linked (Function.update (Function.update next (.node a) (next (lastCell nodes)))
      (lastCell nodes) (some (.node a))) (nodes ++ [a]) := by
  obtain ⟨cells, hcells⟩ := exists_cells nodes
  have hnodup := nodup_cells h.nodup
  have hchain := h.cells
  have hnode : Cell.node a ∉ Cell.head :: nodes.map Cell.node := by simpa using ha
  rw [hcells] at hnodup hchain hnode
  have hlast : lastCell nodes ∉ cells := fun hmem =>
    (List.nodup_append.mp hnodup).2.2 _ hmem _ (List.mem_singleton_self _) rfl
  have hne : lastCell nodes ≠ .node a := fun heq => hnode (by simp [heq])
  have happend := hchain.append hlast hnode
  rw [Function.update_comm hne, ← hcells] at happend
  refine ⟨?_, List.nodup_append.mpr ⟨h.nodup, List.nodup_singleton a, ?_⟩⟩
  · rw [h.next_lastCell]
    simpa using happend.2
  · rintro b hb c hc rfl
    exact ha (List.mem_singleton.mp hc ▸ hb)

/-- A node is unlinked from the cell before it. -/
theorem Linked.unlink {before after : List α} {a : α} (h : Linked next (before ++ a :: after)) :
    Linked (Function.update next (lastCell before) (next (.node a))) (before ++ after) := by
  obtain ⟨cells, hcells⟩ := exists_cells before
  have hsplit : Cell.head :: (before ++ a :: after).map Cell.node =
      cells ++ lastCell before :: .node a :: after.map .node := by
    rw [List.map_append, ← List.cons_append, hcells, List.append_assoc]
    rfl
  have hchain := h.cells
  have hnodup := nodup_cells h.nodup
  rw [hsplit] at hchain hnodup
  have hunlinked := hchain.unlink hnodup
  have hjoin : cells ++ lastCell before :: after.map Cell.node =
      Cell.head :: (before ++ after).map Cell.node := by
    rw [List.map_append, ← List.cons_append, hcells, List.append_assoc]
    rfl
  rw [hjoin] at hunlinked
  refine ⟨hunlinked.2, ?_⟩
  have hsub : (before ++ after).Sublist (before ++ a :: after) :=
    (List.sublist_cons_self a after).append_left before
  exact h.nodup.sublist hsub

end

end LinkedList
