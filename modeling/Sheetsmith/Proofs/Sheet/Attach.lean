import Sheetsmith.Proofs.Sheet.Preorder

namespace Sheetsmith.Sheet

/-- A way to put a node into a list of children: the others keep their order. -/
def Places (child : NodeId) (place : List NodeId → List NodeId) : Prop :=
  ∀ ids, ∃ front back, ids = front ++ back ∧ place ids = front ++ child :: back

theorem places_concat (child : NodeId) : Places child (· ++ [child]) :=
  fun ids => ⟨ids, [], by simp, rfl⟩

/-- Putting a node behind another one keeps the order of all others. Where the other one is missing,
the node goes to the end. -/
theorem places_placeAfter (old new : NodeId) : Places new (placeAfter old new) := by
  intro ids
  induction ids with
  | nil => exact ⟨[], [], rfl, rfl⟩
  | cons id ids ih =>
    rw [placeAfter]
    split
    · exact ⟨[id], ids, rfl, rfl⟩
    · obtain ⟨front, back, hids, hplace⟩ := ih
      exact ⟨id :: front, back, by rw [hids]; rfl, by rw [hplace]; rfl⟩

/-- However a node is put into a list of children, the list is the old one and the node, in some
order. -/
theorem Places.perm {child : NodeId} {place : List NodeId → List NodeId} (h : Places child place)
    (ids : List NodeId) : (place ids).Perm (child :: ids) := by
  obtain ⟨front, back, hids, hplace⟩ := h ids
  rw [hplace, hids]
  exact List.perm_middle

/-- A new node changes nobody's children. It must not bring children of its own, since they would be
children twice. -/
theorem children_create (s : Sheet) {node : Node} (hnode : ∀ g, node = .group g → g.children = [])
    (i : NodeId) : (s.create node).2.children i = s.children i := by
  rw [children, children, group?_create]
  by_cases hi : i = s.size
  · have hnone : s.group? i = none := by
      rw [group?, node?_eq_none_of_size_le (Nat.le_of_eq hi.symm)]
    rw [if_pos hi, hnone]
    cases node with
    | leaf => rfl
    | declaration => rfl
    | group g => exact hnode g rfl
  · rw [if_neg hi]

/-- Attaching a node changes the children of the group that it goes into and of no other. The group
has to be one; a node that is none is left as it is. -/
theorem children_link (s : Sheet) {group : NodeId} (hgroup : (s.group? group).isSome)
    (child : NodeId) (place : List NodeId → List NodeId) (i : NodeId) :
    (s.link group child place).children i =
      if i = group then place (s.children i) else s.children i := by
  rw [children, group?_link]
  by_cases hi : i = group
  · subst hi
    obtain ⟨g, hg⟩ := Option.isSome_iff_exists.1 hgroup
    rw [if_pos rfl, if_pos rfl, children, hg]
    rfl
  · rw [if_neg hi, if_neg hi, children]

/-- A node may be attached if it exists, has no parent and is not the root. -/
theorem checkDetached_eq_ok {s : Sheet} {id : NodeId} (hid : id < s.size) (hroot : id ≠ root)
    (hparent : s.parent? id = none) : s.checkDetached id = .ok () := by
  have hslot : s.slots[id]? = some s.slots[id] := Array.getElem?_eq_getElem hid
  have hne : (id == root) = false := beq_eq_false_iff_ne.2 hroot
  rw [parent?, hslot, Option.bind_some] at hparent
  simp [checkDetached, hslot, hne, hparent]

/-- A node that was just created may be put into the tree: it exists, has no parent, and is not the
root. -/
theorem checkDetached_create {s : Sheet} (hroot : root < s.size) (node : Node) :
    (s.create node).2.checkDetached s.size = .ok () := by
  apply checkDetached_eq_ok
  · simp
  · exact Nat.ne_of_gt hroot
  · rw [parent?_create, parent?_eq_none_of_size_le (Nat.le_refl _)]

namespace IsForest

variable {s : Sheet} (hs : s.IsForest)
include hs

theorem root_lt_size : root < s.size := by
  obtain ⟨g, hg⟩ := Option.isSome_iff_exists.1 hs.root_group
  exact lt_size_of_node? (group?_eq_some_iff.1 hg)

theorem not_below_of_children_eq_nil {id top : NodeId} (htop : s.children top = []) :
    ¬ s.Below id top := by
  intro hbelow
  obtain ⟨child, -, hparent⟩ := Relation.TransGen.tail'_iff.1 hbelow
  have hmem := hs.mem_children_of_parent? hparent
  rw [htop] at hmem
  cases hmem

/-- A new node keeps a forest, as long as it brings no children. It stands by itself, with the next
number. -/
theorem create {node : Node} (hnode : ∀ g, node = .group g → g.children = []) :
    (s.create node).2.IsForest := by
  have hlt := hs.root_lt_size
  refine ⟨?_, ?_, ?_, ?_, ?_⟩
  · rw [group?_create, if_neg (Nat.ne_of_lt hlt)]
    exact hs.root_group
  · rw [parent?_create]
    exact hs.root_parent
  · intro group child
    rw [children_create s hnode, parent?_create]
    exact hs.mem_children_iff group child
  · intro group
    rw [children_create s hnode]
    exact hs.nodup_children group
  · obtain ⟨depth, hdepth⟩ := hs.grounded
    refine ⟨depth, fun child parent hparent => hdepth child parent ?_⟩
    rwa [parent?_create] at hparent

/-- Attaching a top node keeps a forest, unless it would come to lie below itself. That is the one
thing that the checks of the program do not see, so it is assumed here; where among the children the
node goes does not matter. -/
theorem link {group child : NodeId} {place : List NodeId → List NodeId}
    (hgroup : (s.group? group).isSome) (hchild : child < s.size) (hroot : child ≠ root)
    (hparent : s.parent? child = none) (hne : group ≠ child) (hcycle : ¬ s.Below group child)
    (hplace : Places child place) : (s.link group child place).IsForest := by
  have hfresh (id : NodeId) : child ∉ s.children id := by
    intro hmem
    rw [hs.parent?_of_mem_children hmem] at hparent
    cases hparent
  refine ⟨?_, ?_, ?_, ?_, ?_⟩
  · rw [group?_link]
    split
    · rw [Option.isSome_map]
      exact hs.root_group
    · exact hs.root_group
  · rw [parent?_link hchild, if_neg (Ne.symm hroot)]
    exact hs.root_parent
  · intro id x
    rw [children_link s hgroup, parent?_link hchild]
    by_cases hid : id = group
    · subst hid
      rw [if_pos rfl, (hplace.perm _).mem_iff, List.mem_cons, hs.mem_children_iff]
      by_cases hx : x = child
      · simp [hx]
      · simp [hx]
    · rw [if_neg hid, hs.mem_children_iff]
      by_cases hx : x = child
      · simp [hx, hparent, Ne.symm hid]
      · simp [hx]
  · intro id
    rw [children_link s hgroup]
    split
    · rw [(hplace.perm _).nodup_iff, List.nodup_cons]
      exact ⟨hfresh id, hs.nodup_children id⟩
    · exact hs.nodup_children id
  · -- All that moves goes below its new parent by the same amount.
    obtain ⟨depth, hdepth⟩ := hs.grounded
    classical
    refine ⟨fun x => if x = child ∨ s.Below x child then depth x + (depth group + 1) else depth x, ?_⟩
    intro x parent hx
    have hstay : ¬ (group = child ∨ s.Below group child) := by simp [hne, hcycle]
    rw [parent?_link hchild] at hx
    by_cases hxc : x = child
    · rw [if_pos hxc] at hx
      cases hx
      simp only [if_neg hstay, hxc, true_or, if_true]
      omega
    · rw [if_neg hxc] at hx
      have hlt := hdepth x parent hx
      have hiff : s.Below x child ↔ parent = child ∨ s.Below parent child := by
        constructor
        · intro hbelow
          rcases Relation.TransGen.head'_iff.1 hbelow with ⟨y, hy, hrest⟩
          rw [hx] at hy
          cases hy
          rcases Relation.reflTransGen_iff_eq_or_transGen.1 hrest with heq | hbelow
          · exact .inl heq.symm
          · exact .inr hbelow
        · rintro (rfl | hbelow)
          · exact .single hx
          · exact .head hx hbelow
      simp only [hxc, false_or, hiff]
      split <;> omega

/-- A node that was just created may be attached to any group, at any place: there is nothing below
it yet, so no loop can close. -/
theorem create_link {node : Node} (hnode : ∀ g, node = .group g → g.children = [])
    {group : NodeId} (hgroup : (s.group? group).isSome) {place : List NodeId → List NodeId}
    (hplace : Places s.size place) : ((s.create node).2.link group s.size place).IsForest := by
  have hlt := hs.root_lt_size
  have hgroupLt : group < s.size := by
    obtain ⟨g, hg⟩ := Option.isSome_iff_exists.1 hgroup
    exact lt_size_of_node? (group?_eq_some_iff.1 hg)
  have hnew := hs.create hnode
  have hnil : (s.create node).2.children s.size = [] := by
    rw [children_create s hnode, children, group?, node?_eq_none_of_size_le (Nat.le_refl _)]
  refine hnew.link ?_ (by simp) (Nat.ne_of_gt hlt) ?_ (Nat.ne_of_lt hgroupLt)
    (hnew.not_below_of_children_eq_nil hnil) hplace
  · rw [group?_create, if_neg (Nat.ne_of_lt hgroupLt)]
    exact hgroup
  · rw [parent?_create, parent?_eq_none_of_size_le (Nat.le_refl _)]

/-- Taking a node out keeps a forest: with all that is below it, it becomes the top of a tree of its
own. A node that is detached, or does not exist, may be given too. -/
theorem remove (id : NodeId) : (s.remove id).IsForest := by
  cases hparent : s.parent? id with
  | none =>
    rw [Sheet.remove, hparent]
    exact hs
  | some parent =>
    refine ⟨?_, ?_, ?_, ?_, ?_⟩
    · rw [group?_remove hparent]
      split
      · rw [Option.isSome_map]
        exact hs.root_group
      · exact hs.root_group
    · rw [parent?_remove]
      split
      · rfl
      · exact hs.root_parent
    · intro group child
      rw [children_remove hparent, parent?_remove]
      by_cases hgroup : group = parent
      · subst hgroup
        rw [if_pos rfl, List.mem_filter, hs.mem_children_iff]
        by_cases hchild : child = id <;> simp [hchild]
      · rw [if_neg hgroup, hs.mem_children_iff]
        by_cases hchild : child = id
        · simp [hchild, hparent, Ne.symm hgroup]
        · simp [hchild]
    · intro group
      rw [children_remove hparent]
      split
      · exact (hs.nodup_children group).filter _
      · exact hs.nodup_children group
    · obtain ⟨depth, hdepth⟩ := hs.grounded
      refine ⟨depth, fun child top htop => hdepth child top ?_⟩
      rw [parent?_remove] at htop
      split at htop
      · cases htop
      · exact htop

/-- Whether a sheet is a forest depends on its parent links and child lists only. The names, values,
headers and texts of the nodes may change freely. -/
theorem congr {t : Sheet} (hgroup : (t.group? root).isSome)
    (hparent : ∀ id, t.parent? id = s.parent? id)
    (hchildren : ∀ id, t.children id = s.children id) : t.IsForest := by
  refine ⟨hgroup, ?_, ?_, ?_, ?_⟩
  · rw [hparent]
    exact hs.root_parent
  · intro group child
    rw [hchildren, hparent]
    exact hs.mem_children_iff group child
  · intro group
    rw [hchildren]
    exact hs.nodup_children group
  · obtain ⟨depth, hdepth⟩ := hs.grounded
    refine ⟨depth, fun child top htop => hdepth child top ?_⟩
    rwa [hparent] at htop

theorem setSelector (id : NodeId) (selector : Option String) :
    (s.setSelector id selector).IsForest := by
  refine hs.congr ?_ (fun i => parent?_setSelector s id i selector)
    fun i => children_setSelector s id i selector
  rw [group?_setSelector]
  split
  · rw [Option.isSome_map]
    exact hs.root_group
  · exact hs.root_group

theorem modifyDeclaration (id : NodeId) (f : Declaration → Declaration) :
    (s.modifyDeclaration id f).IsForest := by
  refine hs.congr ?_ (fun i => parent?_modifyDeclaration s id i f)
    fun i => children_modifyDeclaration s id i f
  rw [group?_modifyDeclaration]
  exact hs.root_group

end IsForest

end Sheetsmith.Sheet
