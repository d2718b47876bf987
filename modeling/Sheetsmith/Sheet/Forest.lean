import Sheetsmith.Sheet.Basic

namespace Sheetsmith.Sheet

/-- The parent links and the child lists describe the same trees. Each node but the tops of the
trees stands exactly once in the child list of exactly one group, which is the one that its parent
link names, and no chain of parents goes round in a circle. The root is a top; so is every detached
node. -/
structure IsForest (s : Sheet) : Prop where
  /-- The root is a group. -/
  root_group : (s.group? root).isSome
  /-- The root is nobody's child. -/
  root_parent : s.parent? root = none
  /-- The two ways of storing who is whose child agree. -/
  mem_children_iff : ∀ group child, child ∈ s.children group ↔ s.parent? child = some group
  /-- Nobody is a child twice. -/
  nodup_children : ∀ group, (s.children group).Nodup
  /-- Nodes can be given a depth that grows from parent to child. -/
  grounded : ∃ depth : NodeId → Nat,
    ∀ child parent, s.parent? child = some parent → depth parent < depth child

/-- The sheet that holds nothing but its root is a forest. -/
theorem isForest_empty : empty.IsForest where
  root_group := rfl
  root_parent := rfl
  mem_children_iff group child := by
    cases group <;> cases child <;> simp [children, group?, node?, parent?, empty]
  nodup_children group := by
    cases group <;> simp [children, group?, node?, empty]
  grounded := ⟨id, fun child parent h => by cases child <;> simp [parent?, empty] at h⟩

end Sheetsmith.Sheet
