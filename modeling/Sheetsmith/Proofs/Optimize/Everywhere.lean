import Sheetsmith.Proofs.Optimize.Rules
import Sheetsmith.Proofs.Text.Lowering

namespace Sheetsmith

theorem Shorthand.lowercase_name {shorthand : Shorthand} (h : shorthand ∈ all) :
    Text.lowercase shorthand.name = shorthand.name := by
  have hall : ∀ shorthand ∈ all, Text.lowercase shorthand.name = shorthand.name := by decide +kernel
  exact hall shorthand h

/-- A node that is no comment. -/
def Node.NoComment (node : Node) : Prop :=
  ∀ leaf, node = .leaf leaf → leaf.kind ≠ .comment

/-- A node that is no declaration whose name has capitals. -/
def Node.Lowered (node : Node) : Prop :=
  ∀ d, node = .declaration d → Text.lowercase d.name = d.name

namespace Sheet

variable {s t : Sheet} {id i group : NodeId} {read : Color.Reader}

/-- All nodes in the tree below the root have a property. -/
def Everywhere (P : Node → Prop) (s : Sheet) : Prop :=
  ∀ id, s.Below id root → ∀ node, s.node? id = some node → P node

namespace Everywhere

variable {P : Node → Prop} (h : s.Everywhere P)
include h

/-- A declaration may be changed into one that has the property. Where the node is no declaration
there is nothing to show. -/
theorem modifyDeclaration {f : Declaration → Declaration}
    (hf : ∀ d, s.declaration? id = some d → P (.declaration (f d))) :
    (s.modifyDeclaration id f).Everywhere P := by
  intro i hi node hnode
  have hi' : s.Below i root := (below_congr (parent?_modifyDeclaration s id · f)).1 hi
  rw [modifyDeclaration_eq, node?_modifyNode] at hnode
  split at hnode
  · next heq =>
    subst heq
    obtain ⟨old, hold, rfl⟩ := Option.map_eq_some_iff.1 hnode
    cases old with
    | declaration d => exact hf d (declaration?_eq_some_iff.2 hold)
    | leaf leaf => exact h i hi' _ hold
    | group g => exact h i hi' _ hold
  · exact h i hi' node hnode

section

variable (hgroup : ∀ g, P (.group g))
include hgroup

/-- Taking a node out keeps what holds of all nodes, if it holds of every group: a group may lose a
child. -/
theorem remove (id : NodeId) : (s.remove id).Everywhere P := by
  intro i hi node hnode
  rcases node?_remove_eq_or s id i with heq | ⟨g, children, -, heq⟩
  · exact h i hi.of_remove node (heq ▸ hnode)
  · rw [heq] at hnode
    cases hnode
    exact hgroup _

theorem removeAll (ids : List NodeId) : (s.removeAll ids).Everywhere P :=
  ids.foldlRecOn _ h fun _ ht id _ => ht.remove hgroup id

theorem pruneGroups : s.pruneGroups.Everywhere P := by
  refine (s.groups root).reverse.foldlRecOn _ h fun t ht id _ => ?_
  unfold pruneGroup
  split
  · exact ht.remove hgroup id
  · exact ht

/-- A header may be changed, if the property holds of every group. -/
theorem setSelector (id : NodeId) (selector : Option String) :
    (s.setSelector id selector).Everywhere P := by
  intro i hi node hnode
  have hi' : s.Below i root := (below_congr (parent?_setSelector s id · selector)).1 hi
  rw [node?_setSelector] at hnode
  split at hnode
  · obtain ⟨old, hold, rfl⟩ := Option.map_eq_some_iff.1 hnode
    cases old with
    | group g => exact hgroup _
    | leaf leaf => exact h i hi' _ hold
    | declaration d => exact h i hi' _ hold
  · exact h i hi' node hnode

/-- Joining groups keeps what holds of all nodes, if it holds of every group. -/
theorem mergeGroups (hs : s.IsDocument) : s.mergeGroups.Everywhere P := by
  refine hs.mergeGroups_induction h fun t id other _ ht => ?_
  unfold absorb
  split
  · exact (ht.setSelector hgroup id _).remove hgroup other
  · exact ht

/-- A visit gives a declaration a new value, or the name of a shorthand. So a property is kept that
holds of the names of shorthands and does not ask for the value. -/
theorem optimizeDeclarations (hvalue : ∀ d value, P (.declaration d) → P (.declaration { d with value }))
    (hshorthand : ∀ shorthand ∈ Shorthand.all, ∀ value, P (.declaration ⟨shorthand.name, value⟩))
    (hs : s.IsDocument) (ht : s.optimizeDeclarations read = .ok t) : t.Everywhere P := by
  have hids : ∀ id ∈ s.declarations root, id ≠ root := by
    rintro id hid rfl
    have hbelow := ((Vendor.mem_declarations_iff hs.isForest).1 hid).1
    exact hs.isForest.not_below_self _ hbelow
  have hfold := foldlM_induction (motive := fun ids t => t.IsDocument ∧ t.Everywhere P ∧
    ∀ id ∈ ids, id ≠ root) ⟨hs, h, hids⟩ ?_ ht
  · exact hfold.2.1
  rintro id ids u v ⟨hu, hP, hids⟩ hvisit
  unfold optimizeAttached at hvisit
  split at hvisit
  · next hattached =>
    have hbelow := hu.isForest.below_root_of_isAttached hattached (hids id (by simp))
    refine ⟨hu.optimizeDeclaration hvisit, ?_, fun i hi => hids i (by simp [hi])⟩
    have hgiven {w : Sheet} (hw : w.Everywhere P) (hbelow : w.Below id root) (f : Declaration → String) :
        (w.modifyDeclaration id fun d => { d with value := f d }).Everywhere P :=
      hw.modifyDeclaration fun d hd => hvalue d _ (hw id hbelow _ (declaration?_eq_some_iff.1 hd))
    rcases optimizeDeclaration_eq_ok hvisit with ⟨-, rfl⟩ | ⟨d, value, -, -, hcases⟩
    · exact hP
    · have hworded := hgiven hP hbelow fun _ => value
      rcases hcases with ⟨-, rfl⟩ | ⟨name, joined, merged, value', hmerge, -, rfl⟩
      · exact hgiven hworded ((below_congr (parent?_modifyDeclaration u id · _)).2 hbelow) _
      · obtain ⟨shorthand, members, hcompletes, rfl, -, rfl⟩ := mergeShorthand?_eq_some hmerge
        have hnamed (value : String) : P (.declaration ⟨shorthand.name, value⟩) :=
          hshorthand shorthand hcompletes.mem_all value
        refine ((hworded.removeAll hgroup _).modifyDeclaration fun _ _ => hnamed _).modifyDeclaration
          fun d hd => ?_
        rw [declaration?_modifyDeclaration, if_pos rfl] at hd
        obtain ⟨-, -, rfl⟩ := Option.map_eq_some_iff.1 hd
        exact hnamed _
  · cases hvisit
    exact ⟨hu, hP, fun i hi => hids i (by simp [hi])⟩

end

end Everywhere

/-- Taking nodes out leaves the leaves as they are. -/
theorem node?_removeAll_leaf {ids : List NodeId} {leaf : Leaf}
    (h : (s.removeAll ids).node? i = some (.leaf leaf)) : s.node? i = some (.leaf leaf) := by
  refine ids.foldlRecOn (motive := fun t : Sheet =>
    t.node? i = some (.leaf leaf) → s.node? i = some (.leaf leaf)) remove id ?_ h
  intro t ht id _ hleaf
  rcases node?_remove_eq_or t id i with heq | ⟨g, children, -, heq⟩
  · exact ht (heq ▸ hleaf)
  · rw [heq] at hleaf
    cases hleaf

/-- After the pass there is no comment in the tree. Those that were taken out still have their
slots. -/
theorem IsForest.everywhere_removeComments (hs : s.IsForest) :
    s.removeComments.Everywhere Node.NoComment := by
  rintro id hid node hnode leaf rfl hkind
  have hmem : id ∈ s.leaves root .comment := by
    refine List.mem_filter.2 ⟨hs.mem_descendants_iff.2 ((slims_removeAll s _).below id hid), ?_⟩
    rw [node?_removeAll_leaf hnode]
    simpa using hkind
  exact not_below_of_parent?_eq_none (parent?_removeAll_of_mem hmem) hid

/-- A change of declarations that is done in one step may be done several times to one declaration.
So the list may name a node twice, and may name nodes that are no declarations. -/
theorem declaration?_foldl_modifyDeclaration {f : Declaration → Declaration}
    (hf : ∀ d, f (f d) = f d) (ids : List NodeId) (s : Sheet) (i : NodeId) :
    (ids.foldl (fun s id => s.modifyDeclaration id f) s).declaration? i =
      if i ∈ ids then (s.declaration? i).map f else s.declaration? i := by
  induction ids generalizing s with
  | nil => simp
  | cons id ids ih =>
    rw [List.foldl_cons, ih, declaration?_modifyDeclaration]
    by_cases hid : i = id
    · subst hid
      simp [Function.comp_def, hf]
    · simp [hid]

theorem parent?_lowerNames (s : Sheet) (i : NodeId) : s.lowerNames.parent? i = s.parent? i :=
  (s.declarations root).foldlRecOn (motive := fun t : Sheet => t.parent? i = s.parent? i) _ rfl
    fun t ht id _ => by rw [parent?_modifyDeclaration, ht]

/-- After the pass no name in the tree has capitals that could be lowered again. -/
theorem IsForest.everywhere_lowerNames (hs : s.IsForest) : s.lowerNames.Everywhere Node.Lowered := by
  rintro id hid node hnode d rfl
  have hd := declaration?_eq_some_iff.2 hnode
  unfold lowerNames at hd
  rw [declaration?_foldl_modifyDeclaration fun d => by rw [Text.lowercase_lowercase]] at hd
  have hid' : s.Below id root := (below_congr (parent?_lowerNames s)).1 hid
  by_cases hmem : id ∈ s.declarations root
  · rw [if_pos hmem] at hd
    obtain ⟨e, -, rfl⟩ := Option.map_eq_some_iff.1 hd
    exact Text.lowercase_lowercase e.name
  · rw [if_neg hmem] at hd
    exact absurd ((Vendor.mem_declarations_iff hs).2 ⟨hid', by rw [hd]; rfl⟩) hmem

end Sheet

end Sheetsmith
