import Sheetsmith.Proofs.Optimize.Rules

namespace Sheetsmith.Sheet

variable {s t : Sheet} {id id' : NodeId} {ids ids' : List NodeId} {os : List Outline}

/-- Two nodes stand at the same place in their trees. -/
inductive Twins (s t : Sheet) : NodeId → NodeId → Prop where
  | root : Twins s t root root
  | child {group group' id id' : NodeId} {place : Nat} (hgroup : Twins s t group group')
      (hid : (s.children group)[place]? = some id)
      (hid' : (t.children group')[place]? = some id') : Twins s t id id'

/-- What stands at a place in a list of nodes looks like what stands there in the list of outlines.
-/
theorem Shows.exists_getElem? (h : s.Shows ids os) {place : Nat} (hid : ids[place]? = some id) :
    ∃ o, os[place]? = some o ∧ s.Shows [id] [o] := by
  induction h generalizing place with
  | nil => cases hid
  | leaf hnode _ ih =>
    cases place with
    | zero =>
      cases hid
      exact ⟨_, rfl, .leaf hnode .nil⟩
    | succ place => exact ih hid
  | declaration hnode _ ih =>
    cases place with
    | zero =>
      cases hid
      exact ⟨_, rfl, .declaration hnode .nil⟩
    | succ place => exact ih hid
  | group hgroup hinner _ _ ih =>
    cases place with
    | zero =>
      cases hid
      exact ⟨_, rfl, .group hgroup hinner .nil⟩
    | succ place => exact ih hid

theorem Shows.length_eq (h : s.Shows ids os) : ids.length = os.length := by
  induction h with
  | nil => rfl
  | leaf _ _ ih => rw [List.length_cons, List.length_cons, ih]
  | declaration _ _ ih => rw [List.length_cons, List.length_cons, ih]
  | group _ _ _ _ ih => rw [List.length_cons, List.length_cons, ih]

/-- Two nodes look the same. -/
inductive Resembles (s t : Sheet) (id id' : NodeId) : Prop where
  | leaf (leaf : Leaf) (h : s.node? id = some (.leaf leaf)) (h' : t.node? id' = some (.leaf leaf))
  | declaration (d : Declaration) (h : s.node? id = some (.declaration d))
      (h' : t.node? id' = some (.declaration d))
  | group (g g' : Group) (inner : List Outline) (h : s.node? id = some (.group g))
      (h' : t.node? id' = some (.group g')) (hselectors : t.selectors id' = s.selectors id)
      (hinner : s.Shows (s.children id) inner) (hinner' : t.Shows (t.children id') inner)

/-- Nodes of the same outline look the same: both are leaves, declarations or groups, with the same
content and the same outlines below them. -/
theorem Shows.resembles {o : Outline} (h : s.Shows [id] [o]) (h' : t.Shows [id'] [o]) :
    s.Resembles t id id' := by
  cases h with
  | leaf hnode _ =>
    cases h' with
    | leaf hnode' _ => exact .leaf _ hnode hnode'
  | declaration hnode _ =>
    cases h' with
    | declaration hnode' _ => exact .declaration _ hnode hnode'
  | group hgroup hinner _ =>
    generalize hselectors : s.selectors id = selectors at h'
    cases h' with
    | group hgroup' hinner' _ =>
      obtain ⟨g, hg⟩ := Option.isSome_iff_exists.1 hgroup
      obtain ⟨g', hg'⟩ := Option.isSome_iff_exists.1 hgroup'
      exact .group g g' _ (group?_eq_some_iff.1 hg) (group?_eq_some_iff.1 hg') hselectors.symm
        hinner hinner'

namespace SameTree

variable (h : s.SameTree t)
include h

/-- In equal trees twins look the same. The induction goes down the path that leads to both. -/
theorem exists_shows (htwins : s.Twins t id id') :
    ∃ o, s.Shows [id] [o] ∧ t.Shows [id'] [o] := by
  induction htwins with
  | root => exact h
  | child _ hid hid' ih =>
    obtain ⟨o, hshows, hshows'⟩ := ih
    cases hshows.resembles hshows' with
    | leaf _ hnode => simp [children, group?, hnode] at hid
    | declaration _ hnode => simp [children, group?, hnode] at hid
    | group _ _ inner _ _ _ hinner hinner' =>
      obtain ⟨o, ho, hshown⟩ := hinner.exists_getElem? hid
      obtain ⟨o', ho', hshown'⟩ := hinner'.exists_getElem? hid'
      rw [ho] at ho'
      cases ho'
      exact ⟨o, hshown, hshown'⟩

/-- In equal trees twins are of one kind, with one content. -/
theorem resembles (htwins : s.Twins t id id') : s.Resembles t id id' := by
  obtain ⟨o, hshows, hshows'⟩ := h.exists_shows htwins
  exact hshows.resembles hshows'

theorem length_children (htwins : s.Twins t id id') :
    (s.children id).length = (t.children id').length := by
  cases h.resembles htwins with
  | leaf _ hnode hnode' => simp [children, group?, hnode, hnode']
  | declaration _ hnode hnode' => simp [children, group?, hnode, hnode']
  | group _ _ _ _ _ _ hinner hinner' => rw [hinner.length_eq, hinner'.length_eq]

/-- The children of twins are twins, each with the one at its own place. -/
theorem forall₂_children (htwins : s.Twins t id id') :
    List.Forall₂ (s.Twins t) (s.children id) (t.children id') := by
  refine List.forall₂_iff_get.2 ⟨h.length_children htwins, fun place hplace hplace' => ?_⟩
  exact .child htwins (List.getElem?_eq_getElem hplace) (List.getElem?_eq_getElem hplace')

/-- In equal trees each node has a twin. Detached nodes have none. -/
theorem exists_twin (hs : s.IsForest) (ht : t.IsForest) (hid' : t.Below id' root) :
    ∃ id, s.Below id root ∧ s.Twins t id id' := by
  have hchild {group group' id' : NodeId} (htwins : s.Twins t group group')
      (hid' : t.parent? id' = some group') : ∃ id, s.parent? id = some group ∧ s.Twins t id id' := by
    obtain ⟨place, hplace⟩ := List.mem_iff_getElem?.1 (ht.mem_children_of_parent? hid')
    obtain ⟨hlt, -⟩ := List.getElem?_eq_some_iff.1 hplace
    rw [← h.length_children htwins] at hlt
    have hid := List.getElem?_eq_getElem hlt
    exact ⟨_, hs.parent?_of_mem_children (List.mem_of_getElem? hid), .child htwins hid hplace⟩
  induction hid' using Relation.TransGen.head_induction_on with
  | single hparent =>
    obtain ⟨id, hid, htwins⟩ := hchild .root hparent
    exact ⟨id, .single hid, htwins⟩
  | head hparent _ ih =>
    obtain ⟨up, hup, htwins⟩ := ih
    obtain ⟨id, hid, htwins⟩ := hchild htwins hparent
    exact ⟨id, .head hid hup, htwins⟩

section

variable (htwins : s.Twins t id id')
include htwins

theorem declaration?_eq : t.declaration? id' = s.declaration? id := by
  cases h.resembles htwins with
  | leaf _ hnode hnode' => rw [declaration?, declaration?, hnode, hnode']
  | declaration _ hnode hnode' => rw [declaration?, declaration?, hnode, hnode']
  | group _ _ _ hnode hnode' => rw [declaration?, declaration?, hnode, hnode']

theorem kind?_eq : t.kind? id' = s.kind? id := by
  cases h.resembles htwins with
  | leaf _ hnode hnode' => rw [kind?, kind?, hnode, hnode']
  | declaration _ hnode hnode' => rw [kind?, kind?, hnode, hnode']
  | group _ _ _ hnode hnode' =>
    rw [kind?, kind?, hnode, hnode']
    rfl

/-- Twins have the same selector parts. Their headers may differ in the blanks around the commas. -/
theorem selectors_eq : t.selectors id' = s.selectors id := by
  cases h.resembles htwins with
  | leaf _ hnode hnode' => simp [selectors, selector?, group?, hnode, hnode']
  | declaration _ hnode hnode' => simp [selectors, selector?, group?, hnode, hnode']
  | group _ _ _ _ _ hselectors => exact hselectors

/-- Twins have the same declarations as their children, in order. -/
theorem declarationsIn_eq : t.declarationsIn id' = s.declarationsIn id := by
  have hchildren := h.forall₂_children htwins
  unfold declarationsIn
  generalize s.children id = ids, t.children id' = ids' at hchildren
  induction hchildren with
  | nil => rfl
  | cons hhead _ ih => rw [List.filterMap_cons, List.filterMap_cons, h.declaration?_eq hhead, ih]

end

end SameTree

end Sheetsmith.Sheet
