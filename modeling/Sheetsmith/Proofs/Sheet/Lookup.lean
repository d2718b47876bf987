import Sheetsmith.Sheet.Edit

namespace Sheetsmith

/-- Changes a node that is a group. -/
def Node.mapGroup (f : Group → Group) : Node → Node
  | .group g => .group (f g)
  | node => node

/-- Changes a node that is a declaration. -/
def Node.mapDeclaration (f : Declaration → Declaration) : Node → Node
  | .declaration d => .declaration (f d)
  | node => node

namespace Sheet

variable (s : Sheet) (id i : NodeId)

theorem node?_eq_none_of_size_le {s : Sheet} {id : NodeId} (h : s.size ≤ id) :
    s.node? id = none := by
  rw [node?, Array.getElem?_eq_none h]
  rfl

theorem parent?_eq_none_of_size_le {s : Sheet} {id : NodeId} (h : s.size ≤ id) :
    s.parent? id = none := by
  rw [parent?, Array.getElem?_eq_none h]
  rfl

theorem lt_size_of_node? {s : Sheet} {id : NodeId} {node : Node} (h : s.node? id = some node) :
    id < s.size := by
  apply Nat.lt_of_not_le
  intro hle
  rw [node?_eq_none_of_size_le hle] at h
  cases h

theorem lt_size_of_parent? {s : Sheet} {id parent : NodeId} (h : s.parent? id = some parent) :
    id < s.size := by
  apply Nat.lt_of_not_le
  intro hle
  rw [parent?_eq_none_of_size_le hle] at h
  cases h

theorem exists_node?_of_lt {s : Sheet} {id : NodeId} (h : id < s.size) :
    ∃ node, s.node? id = some node := by
  rw [node?, Array.getElem?_eq_getElem h]
  exact ⟨_, rfl⟩

/-- A slot is a node with its parent link, so both lookups together tell everything about a sheet.
-/
theorem getElem?_slots (s : Sheet) (id : NodeId) :
    s.slots[id]? = (s.node? id).map fun node => ⟨node, s.parent? id⟩ := by
  rw [node?, parent?]
  cases s.slots[id]? <;> rfl

theorem group?_eq_some_iff {s : Sheet} {id : NodeId} {g : Group} :
    s.group? id = some g ↔ s.node? id = some (.group g) := by
  rw [group?]
  cases h : s.node? id with
  | none => simp
  | some node => cases node <;> simp

theorem declaration?_eq_some_iff {s : Sheet} {id : NodeId} {d : Declaration} :
    s.declaration? id = some d ↔ s.node? id = some (.declaration d) := by
  rw [declaration?]
  cases h : s.node? id with
  | none => simp
  | some node => cases node <;> simp

theorem children_of_group? {s : Sheet} {id : NodeId} {g : Group} (h : s.group? id = some g) :
    s.children id = g.children := by
  rw [children, h]

theorem children_eq_nil_of_group? {s : Sheet} {id : NodeId} (h : s.group? id = none) :
    s.children id = [] := by
  rw [children, h]

theorem children_of_node? {s : Sheet} {id : NodeId} {g : Group}
    (h : s.node? id = some (.group g)) : s.children id = g.children :=
  children_of_group? (group?_eq_some_iff.2 h)

theorem children_eq_nil_of_kind {s : Sheet} {id : NodeId} {node : Node}
    (h : s.node? id = some node) (hkind : node.kind ≠ .group) : s.children id = [] := by
  apply children_eq_nil_of_group?
  rw [group?, h]
  cases node with
  | group g => exact absurd rfl hkind
  | _ => rfl

theorem selector?_of_node? {s : Sheet} {id : NodeId} {g : Group}
    (h : s.node? id = some (.group g)) : s.selector? id = g.selector := by
  rw [selector?, group?_eq_some_iff.2 h]
  rfl

theorem selector?_congr {s t : Sheet} {id : NodeId} (h : t.node? id = s.node? id) :
    t.selector? id = s.selector? id := by
  rw [selector?, selector?, group?, group?, h]

theorem children_congr {s t : Sheet} {id : NodeId} (h : t.node? id = s.node? id) :
    t.children id = s.children id := by
  rw [children, group?, h, ← group?, ← children]

theorem exists_group_of_mem_children {s : Sheet} {id child : NodeId} (h : child ∈ s.children id) :
    ∃ g, s.group? id = some g := by
  cases hgroup : s.group? id with
  | none =>
    rw [children_eq_nil_of_group? hgroup] at h
    cases h
  | some g => exact ⟨g, rfl⟩

@[simp] theorem create_fst (node : Node) : (s.create node).1 = s.size := rfl

@[simp] theorem size_create (node : Node) : (s.create node).2.size = s.size + 1 := by
  simp [create, size]

/-- A new node gets the next number and leaves all others as they are. -/
theorem node?_create (node : Node) :
    (s.create node).2.node? i = if i = s.size then some node else s.node? i := by
  simp only [create, node?, Array.getElem?_push]
  split
  · next h => simp [h, size]
  · next h => simp [size, h]

@[simp] theorem parent?_create (node : Node) : (s.create node).2.parent? i = s.parent? i := by
  simp only [create, parent?, Array.getElem?_push]
  split
  · next h =>
    rw [h, Array.getElem?_eq_none (Nat.le_refl _)]
    rfl
  · rfl

@[simp] theorem size_modifyNode (f : Node → Node) : (s.modifyNode id f).size = s.size := by
  simp [modifyNode, size]

/-- A change of one node leaves all others as they are. A number that no node has may be given, and
then nothing happens. -/
theorem node?_modifyNode (f : Node → Node) :
    (s.modifyNode id f).node? i = if i = id then (s.node? i).map f else s.node? i := by
  simp only [modifyNode, node?, Array.getElem?_modify]
  by_cases h : i = id
  · simp [h, Function.comp_def]
  · simp [h, Ne.symm h]

@[simp] theorem parent?_modifyNode (f : Node → Node) :
    (s.modifyNode id f).parent? i = s.parent? i := by
  simp only [modifyNode, parent?, Array.getElem?_modify]
  split
  · cases s.slots[i]? <;> rfl
  · rfl

/-- A change that leaves the content of its node is no change of the sheet. What it would make of
other nodes does not matter. -/
theorem modifyNode_eq_self {s : Sheet} {id : NodeId} {f : Node → Node} {node : Node}
    (h : s.node? id = some node) (hf : f node = node) : s.modifyNode id f = s := by
  obtain ⟨slot, hslot, rfl⟩ := Option.map_eq_some_iff.1 h
  have hself : s.slots.modify id (fun slot => { slot with node := f slot.node }) = s.slots := by
    apply Array.ext_getElem?
    intro i
    rw [Array.getElem?_modify]
    by_cases hi : id = i
    · rw [if_pos hi, ← hi, hslot, Option.map_some, hf]
    · rw [if_neg hi]
  exact congrArg Sheet.mk hself

theorem modifyGroup_eq (f : Group → Group) :
    s.modifyGroup id f = s.modifyNode id (Node.mapGroup f) := rfl

@[simp] theorem size_modifyGroup (f : Group → Group) : (s.modifyGroup id f).size = s.size := by
  rw [modifyGroup_eq, size_modifyNode]

theorem node?_modifyGroup (f : Group → Group) :
    (s.modifyGroup id f).node? i =
      if i = id then (s.node? i).map (Node.mapGroup f) else s.node? i := by
  rw [modifyGroup_eq, node?_modifyNode]

@[simp] theorem parent?_modifyGroup (f : Group → Group) :
    (s.modifyGroup id f).parent? i = s.parent? i := by
  rw [modifyGroup_eq, parent?_modifyNode]

theorem group?_modifyGroup (f : Group → Group) :
    (s.modifyGroup id f).group? i = if i = id then (s.group? i).map f else s.group? i := by
  rw [group?, node?_modifyGroup]
  by_cases h : i = id
  · rw [if_pos h, if_pos h, group?]
    cases s.node? i with
    | none => rfl
    | some node => cases node <;> rfl
  · rw [if_neg h, if_neg h, group?]

theorem modifyDeclaration_eq (f : Declaration → Declaration) :
    s.modifyDeclaration id f = s.modifyNode id (Node.mapDeclaration f) := rfl

@[simp] theorem size_modifyDeclaration (f : Declaration → Declaration) :
    (s.modifyDeclaration id f).size = s.size := by
  rw [modifyDeclaration_eq, size_modifyNode]

@[simp] theorem parent?_modifyDeclaration (f : Declaration → Declaration) :
    (s.modifyDeclaration id f).parent? i = s.parent? i := by
  rw [modifyDeclaration_eq, parent?_modifyNode]

@[simp] theorem group?_modifyDeclaration (f : Declaration → Declaration) :
    (s.modifyDeclaration id f).group? i = s.group? i := by
  rw [group?, modifyDeclaration_eq, node?_modifyNode, group?]
  by_cases h : i = id
  · rw [if_pos h]
    cases s.node? i with
    | none => rfl
    | some node => cases node <;> rfl
  · rw [if_neg h]

@[simp] theorem children_modifyDeclaration (f : Declaration → Declaration) :
    (s.modifyDeclaration id f).children i = s.children i := by
  rw [children, group?_modifyDeclaration, children]

@[simp] theorem size_setParent (parent : Option NodeId) :
    (s.setParent id parent).size = s.size := by
  simp [setParent, size]

@[simp] theorem node?_setParent (parent : Option NodeId) :
    (s.setParent id parent).node? i = s.node? i := by
  simp only [setParent, node?, Array.getElem?_modify]
  split
  · cases s.slots[i]? <;> rfl
  · rfl

/-- The parent link of a node that exists is the one that was set. All others are left. Nothing is
assumed about the new parent, which need not exist. -/
theorem parent?_setParent {s : Sheet} {id : NodeId} (hid : id < s.size) (i : NodeId)
    (parent : Option NodeId) :
    (s.setParent id parent).parent? i = if i = id then parent else s.parent? i := by
  simp only [setParent, parent?, Array.getElem?_modify]
  by_cases h : i = id
  · subst h
    have hslot : s.slots[i]? = some s.slots[i] := Array.getElem?_eq_getElem hid
    simp [hslot]
  · simp [h, Ne.symm h]

@[simp] theorem group?_setParent (parent : Option NodeId) :
    (s.setParent id parent).group? i = s.group? i := by
  simp only [group?, node?_setParent]

@[simp] theorem size_link (group child : NodeId) (place : List NodeId → List NodeId) :
    (s.link group child place).size = s.size := by
  simp [link]

/-- Attaching changes the group that a node goes into, in its list of children. The node itself
keeps its content, and where there is no such group no node changes. -/
theorem node?_link (group child : NodeId) (place : List NodeId → List NodeId) :
    (s.link group child place).node? i =
      if i = group then
        (s.node? i).map (Node.mapGroup fun g => { g with children := place g.children })
      else s.node? i := by
  rw [link, node?_setParent, node?_modifyGroup]

theorem group?_link (group child : NodeId) (place : List NodeId → List NodeId) :
    (s.link group child place).group? i =
      if i = group then (s.group? i).map fun g => { g with children := place g.children }
      else s.group? i := by
  rw [link, group?_setParent, group?_modifyGroup]

theorem selector?_link (group child : NodeId) (place : List NodeId → List NodeId) :
    (s.link group child place).selector? i = s.selector? i := by
  rw [selector?, group?_link, selector?]
  split
  · cases s.group? i <;> rfl
  · rfl

/-- Attaching sets the parent link of the node, and no other. The node has to exist; whether the
group does makes no difference to the link. -/
theorem parent?_link {s : Sheet} {child : NodeId} (hchild : child < s.size) (i group : NodeId)
    (place : List NodeId → List NodeId) :
    (s.link group child place).parent? i =
      if i = child then some group else s.parent? i := by
  rw [link, parent?_setParent (by simpa using hchild), parent?_modifyGroup]

theorem group?_create (node : Node) :
    (s.create node).2.group? i =
      if i = s.size then (match node with | .group g => some g | _ => none) else s.group? i := by
  rw [group?, node?_create]
  by_cases h : i = s.size
  · rw [if_pos h, if_pos h]
    cases node <;> rfl
  · rw [if_neg h, if_neg h, group?]

/-- A node that was taken out has no parent. A detached or missing node may be given too. -/
theorem parent?_remove : (s.remove id).parent? i = if i = id then none else s.parent? i := by
  cases hparent : s.parent? id with
  | none =>
    rw [remove, hparent]
    by_cases h : i = id
    · rw [if_pos h, h, hparent]
    · rw [if_neg h]
  | some parent =>
    rw [remove, hparent]
    dsimp only
    rw [parent?_modifyGroup, parent?_setParent (lt_size_of_parent? hparent)]

@[simp] theorem size_remove : (s.remove id).size = s.size := by
  rw [remove]
  split <;> simp

/-- Taking a node out changes its parent, which loses the node from its list of children, and no
other node. A node without a parent is left as it is, so the parent is assumed. -/
theorem node?_remove {s : Sheet} {id parent : NodeId} (hparent : s.parent? id = some parent)
    (i : NodeId) :
    (s.remove id).node? i =
      if i = parent then
        (s.node? i).map (Node.mapGroup fun g =>
          { g with children := g.children.filter (· != id) })
      else s.node? i := by
  rw [remove, hparent]
  dsimp only
  rw [node?_modifyGroup, node?_setParent]

theorem group?_remove {s : Sheet} {id parent : NodeId} (hparent : s.parent? id = some parent)
    (i : NodeId) :
    (s.remove id).group? i =
      if i = parent then
        (s.group? i).map fun g => { g with children := g.children.filter (· != id) }
      else s.group? i := by
  rw [remove, hparent]
  dsimp only
  rw [group?_modifyGroup, group?_setParent]

/-- Nobody but its parent loses the node that is taken out. The node itself keeps its children,
which leave the tree with it. -/
theorem children_remove {s : Sheet} {id parent : NodeId} (hparent : s.parent? id = some parent)
    (i : NodeId) :
    (s.remove id).children i =
      if i = parent then (s.children i).filter (· != id) else s.children i := by
  rw [children, group?_remove hparent, children]
  by_cases h : i = parent
  · rw [if_pos h, if_pos h]
    cases s.group? i <;> rfl
  · rw [if_neg h, if_neg h]

@[simp] theorem declaration?_remove : (s.remove id).declaration? i = s.declaration? i := by
  rw [remove]
  split
  · rfl
  · next parent _ =>
    rw [declaration?, node?_modifyGroup, node?_setParent, declaration?]
    by_cases h : i = parent
    · rw [if_pos h]
      cases s.node? i with
      | none => rfl
      | some node => cases node <;> rfl
    · rw [if_neg h]

@[simp] theorem selector?_remove : (s.remove id).selector? i = s.selector? i := by
  cases hparent : s.parent? id with
  | none => rw [remove, hparent]
  | some parent =>
    rw [selector?, group?_remove hparent, selector?]
    by_cases h : i = parent
    · rw [if_pos h]
      cases s.group? i <;> rfl
    · rw [if_neg h]

@[simp] theorem size_setSelector (selector : Option String) :
    (s.setSelector id selector).size = s.size := by
  rw [setSelector, size_modifyGroup]

@[simp] theorem parent?_setSelector (selector : Option String) :
    (s.setSelector id selector).parent? i = s.parent? i := by
  rw [setSelector, parent?_modifyGroup]

theorem group?_setSelector (selector : Option String) :
    (s.setSelector id selector).group? i =
      if i = id then (s.group? i).map fun g => { g with selector := selector } else s.group? i := by
  rw [setSelector, group?_modifyGroup]

/-- A header is changed in its own group. A node that is no group is left as it is. Its children
stay the same. -/
theorem node?_setSelector (selector : Option String) :
    (s.setSelector id selector).node? i =
      if i = id then (s.node? i).map (Node.mapGroup fun g => { g with selector := selector })
      else s.node? i := by
  rw [setSelector, node?_modifyGroup]

/-- The selector that a group has already is no change. -/
theorem setSelector_of_node? {s : Sheet} {id : NodeId} {g : Group}
    (h : s.node? id = some (.group g)) : s.setSelector id g.selector = s := by
  rw [setSelector, modifyGroup_eq]
  exact modifyNode_eq_self h rfl

@[simp] theorem children_setSelector (selector : Option String) :
    (s.setSelector id selector).children i = s.children i := by
  rw [children, group?_setSelector, children]
  by_cases h : i = id
  · rw [if_pos h]
    cases s.group? i <;> rfl
  · rw [if_neg h]

/-- Setting a header leaves the headers of all other groups. -/
theorem selector?_setSelector_of_ne {s : Sheet} {id i : NodeId} (h : i ≠ id)
    (selector : Option String) : (s.setSelector id selector).selector? i = s.selector? i := by
  rw [selector?, group?_setSelector, if_neg h, selector?]

@[simp] theorem selector?_modifyDeclaration (f : Declaration → Declaration) :
    (s.modifyDeclaration id f).selector? i = s.selector? i := by
  rw [selector?, group?_modifyDeclaration, selector?]

end Sheet

end Sheetsmith
