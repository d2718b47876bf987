import Sheetsmith.Proofs.Sheet.Growth

namespace Sheetsmith

theorem Node.children_alone {node : Node} {g : Group} (h : node.alone = .group g) :
    g.children = [] := by
  cases node with
  | leaf => cases h
  | declaration => cases h
  | group g' => cases h; rfl

namespace Sheet

/-- A copy under construction: the old nodes are untouched, the copy is the top of a
tree of its own, and every new node lies below another new node. -/
structure Copying (s t : Sheet) (node : Node) : Prop where
  isForest : t.IsForest
  size_lt : s.size < t.size
  node_old : ∀ id < s.size, t.node? id = s.node? id
  parent_old : ∀ id < s.size, t.parent? id = s.parent? id
  top : t.parent? s.size = none
  content : (t.node? s.size).map Node.alone = some node.alone
  parent_new : ∀ id parent, s.size ≤ id → t.parent? id = some parent → s.size ≤ parent

/-- What is still to be copied: old nodes, each with the new group it goes into. -/
def Awaits (s t : Sheet) (stack : List (NodeId × NodeId)) : Prop :=
  ∀ entry ∈ stack, entry.1 < s.size ∧ s.size ≤ entry.2 ∧ (t.group? entry.2).isSome

section

variable {s t : Sheet} {node : Node}

/-- While a copy is made, the sheet only grows: all old nodes keep their content, parents and
children. -/
theorem Copying.grows (h : Copying s t node) : Grows s.size s t where
  size_le := Nat.le_of_lt h.size_lt
  alone id hid := by rw [h.node_old id hid]
  parent := h.parent_old
  children id hid := by rw [children_congr (h.node_old id hid)]

/-- The copy of a group is a group, so its header can be set and children can be put into it. -/
theorem Copying.exists_group (h : Copying s t node) {id : NodeId} {g : Group}
    (hnode : s.node? id = some node) (hg : s.group? id = some g) :
    ∃ g', t.group? s.size = some g' := by
  have hcontent := h.content
  rw [group?_eq_some_iff, hnode] at hg
  cases hg
  obtain ⟨node, hnode', halone⟩ := Option.map_eq_some_iff.1 hcontent
  cases node with
  | leaf => cases halone
  | declaration => cases halone
  | group g' => exact ⟨g', group?_eq_some_iff.2 hnode'⟩

/-- Creating the top node of a copy starts it. The node comes without its children, which are copied
after it. -/
theorem copying_create (hs : s.IsForest) (node : Node) :
    Copying s (s.create node.alone).2 node where
  isForest := hs.create fun _ hg => Node.children_alone hg
  size_lt := by simp
  node_old id hid := by rw [node?_create, if_neg (Nat.ne_of_lt hid)]
  parent_old id _ := parent?_create s id _
  top := by rw [parent?_create, parent?_eq_none_of_size_le (Nat.le_refl _)]
  content := by
    rw [node?_create, if_pos rfl]
    cases node <;> rfl
  parent_new id parent hid hparent := by
    rw [parent?_create, parent?_eq_none_of_size_le hid] at hparent
    cases hparent

/-- One more node is copied. It goes into a new group, so the old nodes do not notice, and the copy
remains the top of a tree of its own. -/
theorem Copying.link (h : Copying s t node) (child : Node) {parent : NodeId}
    (hparent : s.size ≤ parent) (hgroup : (t.group? parent).isSome) :
    Copying s ((t.create child.alone).2.link parent t.size (· ++ [t.size])) node := by
  have hlt : parent < t.size := by
    obtain ⟨g, hg⟩ := Option.isSome_iff_exists.1 hgroup
    exact lt_size_of_node? (group?_eq_some_iff.1 hg)
  have hgroup' : ((t.create child.alone).2.group? parent).isSome := by
    rwa [group?_create, if_neg (Nat.ne_of_lt hlt)]
  have hsize : t.size < (t.create child.alone).2.size := by simp
  have hgrows : Grows t.size t ((t.create child.alone).2.link parent t.size (· ++ [t.size])) :=
    (Grows.create (Nat.le_refl _) fun _ hg => Node.children_alone hg).trans
      (Grows.link hgroup' hsize (Nat.le_refl _) (places_concat _))
  refine ⟨?_, ?_, ?_, ?_, ?_, ?_, ?_⟩
  · exact h.isForest.create_link (fun _ hg => Node.children_alone hg) hgroup (places_concat _)
  · exact Nat.lt_of_lt_of_le h.size_lt hgrows.size_le
  · intro id hid
    rw [node?_link, if_neg (Nat.ne_of_lt (Nat.lt_of_lt_of_le hid hparent)), node?_create,
      if_neg (Nat.ne_of_lt (Nat.lt_trans hid h.size_lt)), h.node_old id hid]
  · intro id hid
    rw [hgrows.parent id (Nat.lt_trans hid h.size_lt), h.parent_old id hid]
  · rw [hgrows.parent _ h.size_lt, h.top]
  · rw [hgrows.alone _ h.size_lt, h.content]
  · intro id top hid htop
    rw [parent?_link hsize] at htop
    split at htop
    · cases htop
      exact hparent
    · rw [parent?_create] at htop
      exact h.parent_new id top hid htop

theorem Copying.children_old (h : Copying s t node) {id : NodeId} (hid : id < s.size) :
    t.children id = s.children id :=
  children_congr (h.node_old id hid)

/-- The children of a node that was copied wait for their copies, in front of what was waiting
before. They are children of the old node, which has not changed. -/
theorem Awaits.link (hs : s.IsForest) {id parent : NodeId} {child : Node}
    {stack : List (NodeId × NodeId)} (hstack : Awaits s t ((id, parent) :: stack))
    (h : Copying s t node) (hchild : s.node? id = some child) :
    let t' := (t.create child.alone).2.link parent t.size (· ++ [t.size])
    Awaits s t' ((t'.children id).map (·, t.size) ++ stack) := by
  obtain ⟨hid, hparent, hgroup⟩ := hstack (id, parent) (by simp)
  have hlink := h.link child hparent hgroup
  intro t' entry hentry
  rcases List.mem_append.1 hentry with hentry | hentry
  · obtain ⟨below, hbelow, rfl⟩ := List.mem_map.1 hentry
    rw [hlink.children_old hid] at hbelow
    obtain ⟨g, hg⟩ := exists_group_of_mem_children hbelow
    rw [group?_eq_some_iff, hchild] at hg
    cases hg
    refine ⟨hs.lt_size_of_mem_children hbelow, Nat.le_of_lt h.size_lt, ?_⟩
    rw [group?_link]
    split <;> simp [group?_create, Node.alone]
  · obtain ⟨hfrom, hinto, hsome⟩ := hstack entry (by simp [hentry])
    obtain ⟨g, hg⟩ := Option.isSome_iff_exists.1 hsome
    have hlt : entry.2 < t.size := lt_size_of_node? (group?_eq_some_iff.1 hg)
    refine ⟨hfrom, hinto, ?_⟩
    rw [group?_link, group?_create, if_neg (Nat.ne_of_lt hlt)]
    split <;> simpa using hsome

/-- Whatever number of steps is given, working off the stack keeps the old nodes and the shape of
the copy. So nothing here depends on the fuel; that it suffices is another matter. -/
theorem Copying.copyBelow (hs : s.IsForest) (steps : Nat) {stack : List (NodeId × NodeId)}
    (h : Copying s t node) (hstack : Awaits s t stack) :
    Copying s (Sheet.copyBelow steps stack t) node := by
  induction steps generalizing t stack with
  | zero => exact h
  | succ steps ih =>
    cases stack with
    | nil => exact h
    | cons entry stack =>
      obtain ⟨id, parent⟩ := entry
      obtain ⟨hid, hparent, hgroup⟩ := hstack (id, parent) (by simp)
      obtain ⟨child, hchild⟩ := exists_node?_of_lt hid
      have hcopy : t.copyNode id = t.create child.alone := by
        rw [copyNode, h.node_old id hid, hchild]
      rw [Sheet.copyBelow, hcopy]
      exact ih (h.link child hparent hgroup) (hstack.link hs h hchild)

/-- Copying a subtree leaves the old nodes alone; the copy takes the next number, stands by itself
and has the content of the original on top. The node has to exist, and may be detached. -/
theorem IsForest.copySubtree (hs : s.IsForest) {id : NodeId} (hnode : s.node? id = some node) :
    (s.copySubtree id).1 = s.size ∧ Copying s (s.copySubtree id).2 node := by
  have hcopy : s.copyNode id = s.create node.alone := by rw [copyNode, hnode]
  rw [Sheet.copySubtree, hcopy]
  refine ⟨rfl, (copying_create hs node).copyBelow hs s.size ?_⟩
  intro entry hentry
  obtain ⟨below, hbelow, rfl⟩ := List.mem_map.1 hentry
  obtain ⟨g, hg⟩ := exists_group_of_mem_children hbelow
  rw [group?_eq_some_iff, hnode] at hg
  cases hg
  refine ⟨hs.lt_size_of_mem_children hbelow, Nat.le_refl _, ?_⟩
  simp [group?_create, Node.alone]

end

end Sheet

end Sheetsmith
