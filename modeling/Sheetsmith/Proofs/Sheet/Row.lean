import Sheetsmith.Proofs.Sheet.Preorder

namespace Sheetsmith

/-- Nodes that stand side by side, with their numbers, their contents and all that is below
them. -/
inductive Row where
  | nil
  /-- A leaf or a declaration, and what is behind it. -/
  | item (id : NodeId) (node : Node) (rest : Row)
  /-- A group with its children, and what is behind it. -/
  | group (id : NodeId) (selector : Option String) (inner rest : Row)

namespace Row

/-- The numbers of the nodes that stand side by side. -/
def tops : Row → List NodeId
  | .nil => []
  | .item id _ rest => id :: rest.tops
  | .group id _ _ rest => id :: rest.tops

/-- The numbers of all nodes, each one in front of those below it. -/
def numbers : Row → List NodeId
  | .nil => []
  | .item id _ rest => id :: rest.numbers
  | .group id _ inner rest => id :: inner.numbers ++ rest.numbers

/-- The numbers of all groups, each one in front of those below it. -/
def groups : Row → List NodeId
  | .nil => []
  | .item _ _ rest => rest.groups
  | .group id _ inner rest => id :: inner.groups ++ rest.groups

theorem groups_subset_numbers (row : Row) : row.groups ⊆ row.numbers := by
  induction row with
  | nil => exact List.Subset.refl _
  | item id node rest ih => exact List.subset_cons_of_subset id ih
  | group id selector inner rest ihinner ihrest =>
    refine List.append_subset.2 ⟨?_, List.subset_append_of_subset_right _ ihrest⟩
    exact List.subset_append_of_subset_left _ (List.cons_subset_cons id ihinner)

/-- No node of a row stands in it twice, if and only if none does among those inside a group, none
among those behind it, the two have none in common, and the group itself is in neither. -/
theorem nodup_numbers_group {id : NodeId} {selector : Option String} {inner rest : Row} :
    (Row.group id selector inner rest).numbers.Nodup ↔
      (id ∉ inner.numbers ∧ id ∉ rest.numbers) ∧ inner.numbers.Nodup ∧ rest.numbers.Nodup ∧
        inner.numbers.Disjoint rest.numbers := by
  rw [numbers, List.cons_append, List.nodup_cons, List.nodup_append', List.mem_append, not_or]

/-- Every group of a row has a property, given its number and its header. -/
def EachGroup (P : NodeId → Option String → Prop) : Row → Prop
  | .nil => True
  | .item _ _ rest => rest.EachGroup P
  | .group id header inner rest => P id header ∧ inner.EachGroup P ∧ rest.EachGroup P

instance decidableEachGroup {P : NodeId → Option String → Prop}
    [∀ id header, Decidable (P id header)] :
    (row : Row) → Decidable (row.EachGroup P)
  | .nil => inferInstanceAs (Decidable True)
  | .item _ _ rest => decidableEachGroup rest
  | .group id header inner rest =>
    have := decidableEachGroup (P := P) inner
    have := decidableEachGroup (P := P) rest
    inferInstanceAs (Decidable (P id header ∧ inner.EachGroup P ∧ rest.EachGroup P))

end Row

namespace Sheet

/-- The nodes of a row have, in a sheet, the contents and the children that the row gives them. -/
def Holds (s : Sheet) : Row → Prop
  | .nil => True
  | .item id node rest => (s.node? id = some node ∧ node.kind ≠ .group) ∧ s.Holds rest
  | .group id selector inner rest =>
    s.node? id = some (.group ⟨selector, inner.tops⟩) ∧ s.Holds inner ∧ s.Holds rest

instance decidableHolds (s : Sheet) : (row : Row) → Decidable (s.Holds row)
  | .nil => inferInstanceAs (Decidable True)
  | .item id node rest =>
    have := decidableHolds s rest
    inferInstanceAs (Decidable ((s.node? id = some node ∧ node.kind ≠ .group) ∧ s.Holds rest))
  | .group id selector inner rest =>
    have := decidableHolds s inner
    have := decidableHolds s rest
    inferInstanceAs (Decidable
      (s.node? id = some (.group ⟨selector, inner.tops⟩) ∧ s.Holds inner ∧ s.Holds rest))

section

variable {s t : Sheet} {row : Row}

/-- A sheet holds a row as long as the nodes of the row are what they were. All other nodes may
change. -/
theorem Holds.congr (h : s.Holds row) (hnode : ∀ id ∈ row.numbers, t.node? id = s.node? id) :
    t.Holds row := by
  induction row with
  | nil => trivial
  | item id node rest ih =>
    refine ⟨?_, ih h.2 fun i hi => hnode i (List.mem_cons_of_mem _ hi)⟩
    rw [hnode id List.mem_cons_self]
    exact h.1
  | group id selector inner rest ihinner ihrest =>
    refine ⟨?_, ihinner h.2.1 fun i hi => hnode i ?_, ihrest h.2.2 fun i hi => hnode i ?_⟩
    · rw [hnode id List.mem_cons_self]
      exact h.1
    · exact List.mem_append_left _ (List.mem_cons_of_mem _ hi)
    · exact List.mem_append_right _ hi

/-- A row that a sheet holds lists all nodes below its own. No forest is needed. -/
theorem Holds.spans (h : s.Holds row) : Spans s row.tops row.numbers := by
  induction row with
  | nil => exact .nil
  | item id node rest ih =>
    have hnil : Spans s (s.children id) [] := by
      rw [children_eq_nil_of_kind h.1.1 h.1.2]
      exact .nil
    exact .cons hnil (ih h.2)
  | group id selector inner rest ihinner ihrest =>
    refine .cons ?_ (ihrest h.2.2)
    rw [children_of_node? h.1]
    exact ihinner h.2.1

/-- The groups of a row are those of its nodes that are groups in the sheet. -/
theorem Holds.filter_numbers (h : s.Holds row) :
    (row.numbers.filter fun id => s.kind? id == some .group) = row.groups := by
  induction row with
  | nil => rfl
  | item id node rest ih =>
    have hkind : (s.kind? id == some .group) = false := by
      rw [kind?, h.1.1]
      exact beq_eq_false_iff_ne.2 fun heq => h.1.2 (Option.some.inj heq)
    rw [Row.numbers, List.filter_cons, hkind, ih h.2]
    rfl
  | group id selector inner rest ihinner ihrest =>
    have hkind : (s.kind? id == some .group) = true := by
      rw [kind?, h.1]
      rfl
    rw [Row.numbers, List.cons_append, List.filter_cons, hkind, List.filter_append, ihinner h.2.1,
      ihrest h.2.2]
    rfl

/-- Whether each group of a row has a property can be asked of the sheet. -/
theorem Holds.eachGroup_iff (h : s.Holds row) {P : NodeId → Option String → Prop} :
    row.EachGroup P ↔ ∀ id ∈ row.groups, P id (s.selector? id) := by
  induction row with
  | nil => simp [Row.EachGroup, Row.groups]
  | item id node rest ih => exact ih h.2
  | group id header inner rest ihinner ihrest =>
    rw [Row.EachGroup, Row.groups, List.cons_append, List.forall_mem_cons, List.forall_mem_append,
      ihinner h.2.1, ihrest h.2.2, selector?_of_node? h.1]

/-- Sheets that hold the same row have the same nodes in it. The rest of the two sheets may differ.
-/
theorem Holds.node?_eq (hs : s.Holds row) (ht : t.Holds row) :
    ∀ id ∈ row.numbers, t.node? id = s.node? id := by
  induction row with
  | nil => exact fun id hid => nomatch hid
  | item id node rest ih =>
    refine List.forall_mem_cons.2 ⟨?_, ih hs.2 ht.2⟩
    rw [hs.1.1, ht.1.1]
  | group id header inner rest ihinner ihrest =>
    refine List.forall_mem_append.2 ⟨List.forall_mem_cons.2 ⟨?_, ?_⟩, ihrest hs.2.2 ht.2.2⟩
    · rw [hs.1, ht.1]
    · exact ihinner hs.2.1 ht.2.1

/-- Every listing of nodes is that of a row, if its nodes exist. -/
theorem Spans.exists_row {ids all : List NodeId} (h : Spans s ids all)
    (hall : ∀ id ∈ all, id < s.size) : ∃ row : Row, row.tops = ids ∧ s.Holds row := by
  induction h with
  | nil => exact ⟨.nil, rfl, trivial⟩
  | @cons id ids below rest hbelow hrest ihbelow ihrest =>
    obtain ⟨inner, htops, hinner⟩ := ihbelow fun i hi => hall i (by simp [hi])
    obtain ⟨row, rfl, hrow⟩ := ihrest fun i hi => hall i (by simp [hi])
    obtain ⟨node, hnode⟩ := exists_node?_of_lt (hall id (by simp))
    by_cases hkind : node.kind = .group
    · cases node with
      | group g =>
        rw [children_of_node? hnode] at htops
        exact ⟨.group id g.selector inner row, rfl, by rw [hnode, htops], hinner, hrow⟩
      | _ => cases hkind
    · exact ⟨.item id node row, rfl, ⟨hnode, hkind⟩, hrow⟩

end

namespace IsForest

variable {s : Sheet} (hs : s.IsForest)
include hs

/-- The children of every node of a forest make a row, be the node in the tree or not. -/
theorem exists_row (id : NodeId) : ∃ row : Row, s.children id = row.tops ∧ s.Holds row := by
  have hspans := hs.spans_descendants id
  have hlt : ∀ i ∈ s.descendants id, i < s.size :=
    hspans.forall_mem (fun i hi => hs.lt_size_of_mem_children hi)
      fun _ _ i hi => hs.lt_size_of_mem_children hi
  obtain ⟨row, htops, hrow⟩ := hspans.exists_row hlt
  exact ⟨row, htops.symm, hrow⟩

variable {id : NodeId} {row : Row}

/-- What is listed below a node is numbered by the row of its children. -/
theorem descendants_eq_numbers (hid : s.children id = row.tops) (hrow : s.Holds row) :
    s.descendants id = row.numbers := by
  have hspans := hrow.spans
  rw [← hid] at hspans
  exact hspans.walk_eq (hs.length_le_size_of_spans hspans)

/-- In a forest no node stands in a row twice. -/
theorem nodup_numbers (hid : s.children id = row.tops) (hrow : s.Holds row) :
    row.numbers.Nodup := by
  have hspans := hrow.spans
  rw [← hid] at hspans
  exact hs.nodup_of_spans hspans

/-- The groups that are listed below a node are those of the row of its children, in the same order.
-/
theorem groups_eq_groups (hid : s.children id = row.tops) (hrow : s.Holds row) :
    s.groups id = row.groups := by
  rw [groups, descendantsOfKind, hs.descendants_eq_numbers hid hrow, hrow.filter_numbers]

/-- All nodes of a row are below the parent of its top nodes. The row may be a part of the parent's
children only. -/
theorem below_of_mem_numbers (hid : row.tops ⊆ s.children id) (hrow : s.Holds row) :
    ∀ i ∈ row.numbers, s.Below i id := by
  refine hrow.spans.forall_mem (fun i hi => .single (hs.parent?_of_mem_children (hid hi))) ?_
  intro i hi child hchild
  exact .head (hs.parent?_of_mem_children hchild) hi

end IsForest

end Sheet

end Sheetsmith
