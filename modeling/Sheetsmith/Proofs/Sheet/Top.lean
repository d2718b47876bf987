import Sheetsmith.Proofs.Sheet.History

namespace Sheetsmith

open Sheet Edit

namespace Sheet

/-- There is a root, and it is nobody's child. -/
structure RootIsTop (s : Sheet) : Prop where
  lt_size : root < s.size
  parent?_root : s.parent? root = none
  not_mem_children : ∀ id, root ∉ s.children id

theorem IsForest.rootIsTop {s : Sheet} (hs : s.IsForest) : s.RootIsTop := by
  refine ⟨hs.root_lt_size, hs.root_parent, fun id hmem => ?_⟩
  have hparent := hs.parent?_of_mem_children hmem
  rw [hs.root_parent] at hparent
  cases hparent

/-- A walk meets only its stack and the children of groups. The number of steps does not matter. -/
theorem not_mem_walk {s : Sheet} {id : NodeId} (hchildren : ∀ i, id ∉ s.children i) (steps : Nat)
    {stack : List NodeId} (hstack : id ∉ stack) : id ∉ s.walk steps stack := by
  induction steps generalizing stack with
  | zero => exact List.not_mem_nil
  | succ steps ih =>
    cases stack with
    | nil => exact List.not_mem_nil
    | cons i stack =>
      rw [List.mem_cons, not_or] at hstack
      rw [walk, List.mem_cons, not_or]
      refine ⟨hstack.1, ih fun hmem => ?_⟩
      exact (List.mem_append.1 hmem).elim (hchildren i) hstack.2

theorem parent?_setParent_of_ne {s : Sheet} {id i : NodeId} (h : i ≠ id) (parent : Option NodeId) :
    (s.setParent id parent).parent? i = s.parent? i := by
  simp only [setParent, parent?, Array.getElem?_modify, if_neg (Ne.symm h)]

namespace RootIsTop

variable {s t : Sheet} (hs : s.RootIsTop)
include hs

/-- The root is listed below no node. This needs no forest. -/
theorem not_mem_descendants (id : NodeId) : root ∉ s.descendants id :=
  not_mem_walk hs.not_mem_children s.size (hs.not_mem_children id)

/-- Whether the root is at the top depends on the links only. -/
theorem congr (hsize : t.size = s.size) (hparent : ∀ id, t.parent? id = s.parent? id)
    (hchildren : ∀ id, t.children id = s.children id) : t.RootIsTop := by
  refine ⟨hsize ▸ hs.lt_size, ?_, fun id => ?_⟩
  · rw [hparent]
    exact hs.parent?_root
  · rw [hchildren]
    exact hs.not_mem_children id

/-- A new node puts the root nowhere, as it has no children. -/
theorem create {node : Node} (hnode : ∀ g, node = .group g → g.children = []) :
    (s.create node).2.RootIsTop := by
  refine ⟨?_, ?_, fun id => ?_⟩
  · rw [size_create]
    exact Nat.lt_succ_of_lt hs.lt_size
  · rw [parent?_create]
    exact hs.parent?_root
  · rw [children_create s hnode]
    exact hs.not_mem_children id

/-- Attaching any other node leaves the root at the top. -/
theorem link {group child : NodeId} {place : List NodeId → List NodeId} (hchild : child ≠ root)
    (hplace : Places child place) : (s.link group child place).RootIsTop := by
  refine ⟨?_, ?_, fun id hmem => ?_⟩
  · rw [size_link]
    exact hs.lt_size
  · rw [Sheet.link, parent?_setParent_of_ne (Ne.symm hchild), parent?_modifyGroup]
    exact hs.parent?_root
  · obtain ⟨g, hg⟩ := exists_group_of_mem_children hmem
    rw [children_of_group? hg] at hmem
    rw [group?_link] at hg
    split at hg
    · obtain ⟨g', hg', rfl⟩ := Option.map_eq_some_iff.1 hg
      rw [(hplace.perm _).mem_iff, ← children_of_group? hg', List.mem_cons] at hmem
      exact hmem.elim (Ne.symm hchild) (hs.not_mem_children id)
    · rw [← children_of_group? hg] at hmem
      exact hs.not_mem_children id hmem

theorem remove (id : NodeId) : (s.remove id).RootIsTop := by
  cases hparent : s.parent? id with
  | none =>
    rw [Sheet.remove, hparent]
    exact hs
  | some parent =>
    refine ⟨?_, ?_, fun i => ?_⟩
    · rw [size_remove]
      exact hs.lt_size
    · rw [parent?_remove]
      split
      · rfl
      · exact hs.parent?_root
    · rw [children_remove hparent]
      split
      · exact fun hmem => hs.not_mem_children i (List.mem_of_mem_filter hmem)
      · exact hs.not_mem_children i

theorem copyNode (id : NodeId) : (s.copyNode id).1 ≠ root ∧ (s.copyNode id).2.RootIsTop := by
  rw [Sheet.copyNode]
  split
  · next node _ =>
    refine ⟨Nat.ne_of_gt hs.lt_size, hs.create ?_⟩
    rintro g hg
    cases node with
    | group g' =>
      cases hg
      rfl
    | _ => cases hg
  · exact ⟨Nat.ne_of_gt hs.lt_size, hs⟩

/-- Copying what is below a node leaves the root at the top, after any number of steps and from any
stack. -/
theorem copyBelow (steps : Nat) (stack : List (NodeId × NodeId)) :
    (s.copyBelow steps stack).RootIsTop := by
  induction steps generalizing s stack with
  | zero => exact hs
  | succ steps ih =>
    cases stack with
    | nil => exact hs
    | cons top stack =>
      obtain ⟨hne, hcopy⟩ := hs.copyNode top.1
      exact ih (hcopy.link hne (places_concat _)) _

/-- A copy of the root is another node, and the root stays where it is. -/
theorem copySubtree (id : NodeId) : (s.copySubtree id).2.RootIsTop :=
  (hs.copyNode id).2.copyBelow _ _

end RootIsTop

end Sheet

namespace Step

/-- Inserting behind a node does not move the root: the checks stop where the root is to be
attached. -/
theorem maintains_insertAfter (id new : NodeId) :
    Maintains RootIsTop (attempt fun s => s.insertAfter id new) := by
  refine maintains_attempt fun s t hs h => ?_
  obtain ⟨parent, hfits, rfl⟩ := insertAfter_eq_ok h
  exact hs.link hfits.ne_root (places_placeAfter id new)

/-- No step, safe or not, puts the root anywhere. So the one thing that can break a forest, a loop,
is closed elsewhere. -/
theorem rootIsTop_final {s : Sheet} (hs : s.RootIsTop) (step : Step) :
    (step.edit.final s).RootIsTop := by
  cases step with
  | createGroup selector => exact hs.create (by rintro g ⟨⟩; rfl)
  | createDeclaration name value => exact hs.create (by rintro g ⟨⟩)
  | createLeaf kind text => exact hs.create (by rintro g ⟨⟩)
  | appendChild group child =>
    refine maintains_attempt (fun t u ht h => ?_) s hs
    obtain ⟨hfits, rfl⟩ := appendChild_eq_ok h
    exact ht.link hfits.ne_root (places_concat child)
  | insertAfter id new => exact maintains_insertAfter id new s hs
  | insertDeclarationAfter id name value =>
    have hcreate : Maintains RootIsTop (Edit.create (.declaration ⟨name, value⟩)) :=
      fun t ht => ht.create (by rintro g ⟨⟩)
    have hinsert : Maintains RootIsTop (Edit.insertDeclarationAfter id name value) :=
      hcreate.bind fun new => (maintains_insertAfter id new).bind fun _ => maintains_pure new
    exact hinsert.bind (fun _ => maintains_pure ()) s hs
  | remove id => exact hs.remove id
  | copySubtree id => exact hs.copySubtree id
  | setSelector id selector =>
    exact hs.congr (size_setSelector s id _) (fun i => parent?_setSelector s id i _)
      fun i => children_setSelector s id i _
  | setSelectors id parts =>
    exact hs.congr (size_setSelector s id _) (fun i => parent?_setSelector s id i _)
      fun i => children_setSelector s id i _
  | modifyDeclaration id f =>
    exact hs.congr (size_modifyDeclaration s id f) (fun i => parent?_modifyDeclaration s id i f)
      fun i => children_modifyDeclaration s id i f

end Step

/-- Whatever steps are taken, the root stays nobody's child. Nothing is assumed about them. -/
theorem Sheet.RootIsTop.after {s : Sheet} (hs : s.RootIsTop) (steps : List Step) :
    (s.after steps).RootIsTop :=
  steps.foldlRecOn _ hs fun _ ht step _ => Step.rootIsTop_final ht step

end Sheetsmith
