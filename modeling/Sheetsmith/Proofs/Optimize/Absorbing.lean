import Sheetsmith.Proofs.Optimize.Stable

namespace Sheetsmith.Sheet

/-- The selector parts of the ordinary groups of a parent, each with the body of its group. -/
def partsWithBodies (s : Sheet) (parent : NodeId) : List (String × String) :=
  ((s.children parent).filter s.isMergeable).flatMap fun id =>
    (s.selectors id).map (·, s.bodyText id)

/-- No header is an empty text, and no group stands in an ordinary group. -/
structure IsFlat (s : Sheet) : Prop where
  isForest : s.IsForest
  headed : ∀ id, s.selector? id ≠ some ""
  flat : ∀ id, s.isMergeable id = true → ∀ child ∈ s.children id, s.group? child = none

/-- Ordinary groups have left the tree and others have taken over what they say; nothing else has
changed. -/
structure Joins (s t : Sheet) : Prop where
  isFlat : t.IsFlat
  size_eq : t.size = s.size
  /-- The same groups are ordinary. -/
  isMergeable_eq : ∀ id, t.isMergeable id = s.isMergeable id
  /-- Ordinary groups keep their bodies. -/
  bodyText_eq : ∀ id, s.isMergeable id = true → t.bodyText id = s.bodyText id
  /-- All else keeps its content, children apart. -/
  alone_eq : ∀ id, s.isMergeable id = false →
    (t.node? id).map Node.alone = (s.node? id).map Node.alone
  /-- Only ordinary groups leave their parents. -/
  parent_eq_or : ∀ id, t.parent? id = s.parent? id ∨
    t.parent? id = none ∧ s.isMergeable id = true
  /-- The children that have not left stand in their order. -/
  children_eq : ∀ parent,
    t.children parent = (s.children parent).filter (t.parent? · == some parent)
  /-- What the ordinary groups of a parent say, all in all they say still. -/
  perm : ∀ parent, (t.partsWithBodies parent).Perm (s.partsWithBodies parent)

section

variable {s t u : Sheet} {id other parent : NodeId}

theorem isSome_group?_of_isMergeable (h : s.isMergeable id = true) : (s.group? id).isSome := by
  unfold isMergeable selector? at h
  cases hgroup : s.group? id with
  | none => simp [hgroup] at h
  | some g => rfl

theorem Joins.refl (hs : s.IsFlat) : Joins s s where
  isFlat := hs
  size_eq := rfl
  isMergeable_eq _ := rfl
  bodyText_eq _ _ := rfl
  alone_eq _ _ := rfl
  parent_eq_or _ := .inl rfl
  children_eq parent := by
    refine (List.filter_eq_self.2 fun child hchild => ?_).symm
    simpa using hs.isForest.parent?_of_mem_children hchild
  perm _ := .refl _

/-- What has a parent after the joining had the same one before. -/
theorem Joins.parent_eq (h : Joins s t) (hparent : t.parent? id = some parent) :
    s.parent? id = some parent := by
  rcases h.parent_eq_or id with heq | ⟨hnone, -⟩
  · rw [← heq, hparent]
  · rw [hnone] at hparent
    cases hparent

/-- Joining goes on where it has stopped. The groups that left the tree on the way do not come back.
-/
theorem Joins.trans (h : Joins s t) (h' : Joins t u) : Joins s u where
  isFlat := h'.isFlat
  size_eq := h'.size_eq.trans h.size_eq
  isMergeable_eq id := (h'.isMergeable_eq id).trans (h.isMergeable_eq id)
  bodyText_eq id hid := by
    rw [h'.bodyText_eq id ((h.isMergeable_eq id).trans hid), h.bodyText_eq id hid]
  alone_eq id hid := by
    rw [h'.alone_eq id ((h.isMergeable_eq id).trans hid), h.alone_eq id hid]
  parent_eq_or id := by
    rcases h'.parent_eq_or id with heq | ⟨hnone, hid⟩
    · rw [heq]
      exact h.parent_eq_or id
    · exact .inr ⟨hnone, (h.isMergeable_eq id).symm.trans hid⟩
  children_eq parent := by
    rw [h'.children_eq, h.children_eq, List.filter_filter]
    refine List.filter_congr fun child _ => ?_
    rw [Bool.and_eq_left_iff_imp]
    intro hchild
    simpa using h'.parent_eq (by simpa using hchild)
  perm parent := (h'.perm parent).trans (h.perm parent)

/-- Texts are written without regard to the sheet. So no stack of texts tells two sheets apart,
whatever their nodes are. -/
theorem write_texts (s t : Sheet) (layout : Layout) {stack : List Pending}
    (hstack : ∀ pending ∈ stack, ∃ text, pending = .text text) (steps : Nat) (out : String) :
    s.write layout steps stack out = t.write layout steps stack out := by
  induction steps generalizing stack out with
  | zero => rfl
  | succ steps ih =>
    cases stack with
    | nil => rfl
    | cons pending stack =>
      obtain ⟨text, rfl⟩ := hstack pending List.mem_cons_self
      exact ih (fun pending hpending => hstack pending (List.mem_cons_of_mem _ hpending)) _

/-- The text of a node that is no group is that of its content. In the spread layout it does not
matter whether the node is the last child. -/
theorem renderNode_spread_congr (hsize : t.size = s.size) (hnode : t.node? id = s.node? id)
    (hgroup : s.group? id = none) : t.renderNode .spread id = s.renderNode .spread id := by
  have hexpand : t.expand .spread id = s.expand .spread id ∧
      ∀ pending ∈ s.expand .spread id, ∃ text, pending = .text text := by
    unfold expand
    rw [hnode]
    unfold group? at hgroup
    cases hs : s.node? id with
    | none => simp
    | some node =>
      cases node with
      | leaf leaf => simp
      | declaration d => simp
      | group g => simp [hs] at hgroup
  rw [renderNode, renderNode, hsize]
  show t.write .spread (4 * s.size) (t.expand .spread id ++ []) "" =
    s.write .spread (4 * s.size) (s.expand .spread id ++ []) ""
  rw [hexpand.1, List.append_nil]
  exact write_texts t s .spread hexpand.2 _ _

/-- The body of a group without groups in it depends on nothing but its children. The number of
slots enters as the bound of the writer. -/
theorem bodyText_congr (hsize : t.size = s.size) (hchildren : t.children id = s.children id)
    (hnode : ∀ child ∈ s.children id, t.node? child = s.node? child ∧ s.group? child = none) :
    t.bodyText id = s.bodyText id := by
  rw [bodyText, bodyText, hchildren]
  congr 1
  refine List.map_congr_left fun child hchild => ?_
  exact renderNode_spread_congr hsize (hnode child hchild).1 (hnode child hchild).2

/-- When one member of a list takes over what another one gives, all in all the list gives the same,
up to order. -/
theorem perm_flatMap_filter {α : Type} {f g : NodeId → List α} {ids : List NodeId}
    (hnodup : ids.Nodup) (hid : id ∈ ids) (hother : other ∈ ids) (hne : other ≠ id)
    (hjoin : g id = f id ++ f other) (hsame : ∀ i, i ≠ id → g i = f i) :
    ((ids.filter (· ≠ other)).flatMap g).Perm (ids.flatMap f) := by
  have hids := List.perm_cons_erase hother
  rw [hnodup.erase_eq_filter] at hids
  generalize hrest : ids.filter (· != other) = rest at hids
  have hmem : id ∈ rest := by
    rw [← hrest]
    exact List.mem_filter.2 ⟨hid, bne_iff_ne.2 hne.symm⟩
  have hnodup' : rest.Nodup := hrest ▸ hnodup.filter _
  have hperm := List.perm_cons_erase hmem
  have hsame' : (rest.erase id).flatMap g = (rest.erase id).flatMap f := by
    refine List.flatMap_congr fun i hi => hsame i ?_
    rintro rfl
    exact hnodup'.not_mem_erase hi
  have hfilter : ids.filter (· ≠ other) = rest := by
    rw [← hrest]
    refine List.filter_congr fun i _ => ?_
    by_cases hi : i = other <;> simp [hi]
  rw [hfilter]
  calc (rest.flatMap g).Perm ((id :: rest.erase id).flatMap g) := hperm.flatMap_right g
    _ = f id ++ f other ++ (rest.erase id).flatMap f := by rw [List.flatMap_cons, hjoin, hsame']
    _ |>.Perm (f other ++ (f id ++ (rest.erase id).flatMap f)) := by
      rw [← List.append_assoc]
      exact List.perm_append_comm.append_right _
    _ = f other ++ (id :: rest.erase id).flatMap f := by rw [List.flatMap_cons]
    _ |>.Perm (f other ++ rest.flatMap f) := (hperm.symm.flatMap_right f).append_left _
    _ = (other :: rest).flatMap f := by rw [List.flatMap_cons]
    _ |>.Perm (ids.flatMap f) := hids.symm.flatMap_right f

/-- Two ordinary groups of one parent that have the same body. -/
structure Alike (s : Sheet) (id other parent : NodeId) : Prop where
  isFlat : s.IsFlat
  parent_id : s.parent? id = some parent
  parent_other : s.parent? other = some parent
  ne : other ≠ id
  mergeable_id : s.isMergeable id = true
  mergeable_other : s.isMergeable other = true
  body : s.bodyText other = s.bodyText id

theorem exists_selector_of_isMergeable (h : s.isMergeable id = true) :
    ∃ selector, s.selector? id = some selector := by
  unfold isMergeable at h
  cases hselector : s.selector? id with
  | none => simp [hselector] at h
  | some selector => exact ⟨selector, rfl⟩

/-- The two headers become one, and the second group leaves the tree. Neither header is missing or
empty. -/
theorem Alike.absorb_eq (h : s.Alike id other parent) : ∃ a b,
    (s.selector? id = some a ∧ a ≠ "") ∧ (s.selector? other = some b ∧ b ≠ "") ∧
      s.absorb id other = (s.setSelector id (some (a ++ "," ++ b))).remove other := by
  obtain ⟨a, ha⟩ := exists_selector_of_isMergeable h.mergeable_id
  obtain ⟨b, hb⟩ := exists_selector_of_isMergeable h.mergeable_other
  refine ⟨a, b, ⟨ha, ?_⟩, ⟨hb, ?_⟩, by rw [absorb, ha, hb]⟩
  · rintro rfl
    exact h.isFlat.headed id ha
  · rintro rfl
    exact h.isFlat.headed other hb

/-- All other groups keep their headers, the one that leaves included. -/
theorem Alike.selector?_absorb_of_ne (h : s.Alike id other parent) {i : NodeId} (hi : i ≠ id) :
    (s.absorb id other).selector? i = s.selector? i := by
  obtain ⟨a, b, -, -, habsorb⟩ := h.absorb_eq
  rw [habsorb, selector?_remove, selector?_setSelector_of_ne hi]

/-- The joined header is not empty, and all others are what they were. -/
theorem Alike.headed_absorb (h : s.Alike id other parent) (i : NodeId) :
    (s.absorb id other).selector? i ≠ some "" := by
  by_cases hi : i = id
  · subst hi
    obtain ⟨a, b, ⟨ha, -⟩, -, habsorb⟩ := h.absorb_eq
    obtain ⟨g, hg, -⟩ := Option.bind_eq_some_iff.1 ha
    rw [habsorb, selector?_remove, selector?, group?_setSelector, if_pos rfl, hg]
    simp
  · rw [h.selector?_absorb_of_ne hi]
    exact h.isFlat.headed i

/-- The group that stays has the parts of both headers, its own ones first. -/
theorem Alike.selectors_absorb (h : s.Alike id other parent) :
    (s.absorb id other).selectors id = s.selectors id ++ s.selectors other := by
  obtain ⟨a, b, ⟨ha, hane⟩, ⟨hb, hbne⟩, habsorb⟩ := h.absorb_eq
  obtain ⟨g, hg, -⟩ := Option.bind_eq_some_iff.1 ha
  have hjoined : (s.absorb id other).selector? id = some (a ++ "," ++ b) := by
    rw [habsorb, selector?_remove, selector?, group?_setSelector, if_pos rfl, hg]
    rfl
  rw [selectors, selectors, selectors, hjoined, ha, hb]
  exact selectorParts_append hane hbne

/-- The first selector part tells whether a group is ordinary, and it stays the first. -/
theorem Alike.isMergeable_absorb (h : s.Alike id other parent) (i : NodeId) :
    (s.absorb id other).isMergeable i = s.isMergeable i := by
  rw [isMergeable_eq (h.headed_absorb i), isMergeable_eq (h.isFlat.headed i)]
  by_cases hi : i = id
  · subst hi
    obtain ⟨a, -, ⟨ha, hane⟩, -, -⟩ := h.absorb_eq
    have hne : s.selectors i ≠ [] := by
      rw [selectors, ha]
      exact selectorParts_ne_nil hane
    rw [h.selectors_absorb, List.head?_append_of_ne_nil _ hne]
  · rw [selectors, selectors, h.selector?_absorb_of_ne hi]

theorem Alike.isForest_absorb (h : s.Alike id other parent) : (s.absorb id other).IsForest := by
  obtain ⟨a, b, -, -, habsorb⟩ := h.absorb_eq
  rw [habsorb]
  exact (h.isFlat.isForest.setSelector id _).remove other

theorem Alike.size_absorb (h : s.Alike id other parent) : (s.absorb id other).size = s.size := by
  obtain ⟨a, b, -, -, habsorb⟩ := h.absorb_eq
  rw [habsorb, size_remove, size_setSelector]

/-- Only the group that was taken in leaves its parent. -/
theorem Alike.parent?_absorb (h : s.Alike id other parent) (i : NodeId) :
    (s.absorb id other).parent? i = if i = other then none else s.parent? i := by
  obtain ⟨a, b, -, -, habsorb⟩ := h.absorb_eq
  rw [habsorb, parent?_remove, parent?_setSelector]

theorem Alike.children_absorb (h : s.Alike id other parent) (group : NodeId) :
    (s.absorb id other).children group = (s.children group).filter (· ≠ other) := by
  obtain ⟨a, b, -, -, habsorb⟩ := h.absorb_eq
  rw [habsorb, (h.isFlat.isForest.setSelector id _).children_remove_eq, children_setSelector]

/-- No node but the one that stays changes, apart from the list of children of a group. In
particular no declaration, leaf or header elsewhere changes, and no slot becomes empty. -/
theorem Alike.node?_absorb (h : s.Alike id other parent) {i : NodeId} (hi : i ≠ id) :
    (s.absorb id other).node? i = s.node? i ∨ ∃ g children, s.node? i = some (.group g) ∧
      (s.absorb id other).node? i = some (.group { g with children }) := by
  obtain ⟨a, b, -, -, habsorb⟩ := h.absorb_eq
  have hset : (s.setSelector id (some (a ++ "," ++ b))).node? i = s.node? i := by
    rw [node?_setSelector, if_neg hi]
  have hcases := node?_remove_eq_or (s.setSelector id (some (a ++ "," ++ b))) other i
  rwa [hset, ← habsorb] at hcases

theorem group?_absorb_eq_none {i : NodeId} (hi : s.group? i = none) :
    (s.absorb id other).group? i = none := by
  have hsome := isSome_group?_absorb s id other i
  rw [hi] at hsome
  simpa using hsome

theorem Alike.node?_absorb_of_group? (h : s.Alike id other parent) {i : NodeId}
    (hi : s.group? i = none) : (s.absorb id other).node? i = s.node? i := by
  have hne : i ≠ id := by
    rintro rfl
    have hsome := isSome_group?_of_isMergeable h.mergeable_id
    rw [hi] at hsome
    cases hsome
  rcases h.node?_absorb hne with heq | ⟨g, children, hnode, -⟩
  · exact heq
  · rw [group?, hnode] at hi
    cases hi

/-- An ordinary group keeps its children, for the group that leaves is none of them. -/
theorem Alike.children_absorb_of_isMergeable (h : s.Alike id other parent) {i : NodeId}
    (hi : s.isMergeable i = true) : (s.absorb id other).children i = s.children i := by
  rw [h.children_absorb]
  refine List.filter_eq_self.2 fun child hchild => ?_
  have hne : child ≠ other := by
    rintro rfl
    have hsome := isSome_group?_of_isMergeable h.mergeable_other
    rw [h.isFlat.flat i hi child hchild] at hsome
    cases hsome
  simpa using hne

/-- Every ordinary group keeps its body, also the one that has left. -/
theorem Alike.bodyText_absorb (h : s.Alike id other parent) {i : NodeId}
    (hi : s.isMergeable i = true) : (s.absorb id other).bodyText i = s.bodyText i := by
  refine bodyText_congr h.size_absorb (h.children_absorb_of_isMergeable hi) fun child hchild => ?_
  have hgroup := h.isFlat.flat i hi child hchild
  exact ⟨h.node?_absorb_of_group? hgroup, hgroup⟩

/-- No header has become empty, and no group has come into an ordinary one. -/
theorem Alike.isFlat_absorb (h : s.Alike id other parent) : (s.absorb id other).IsFlat where
  isForest := h.isForest_absorb
  headed := h.headed_absorb
  flat i hi child hchild := by
    rw [h.isMergeable_absorb] at hi
    rw [h.children_absorb_of_isMergeable hi] at hchild
    exact group?_absorb_eq_none (h.isFlat.flat i hi child hchild)

/-- The group that stays says what both have said, so every parent keeps its parts with their
bodies, up to order. -/
theorem Alike.perm_absorb (h : s.Alike id other parent) (group : NodeId) :
    ((s.absorb id other).partsWithBodies group).Perm (s.partsWithBodies group) := by
  have hforest := h.isFlat.isForest
  have hmergeable : (s.absorb id other).isMergeable = s.isMergeable := funext h.isMergeable_absorb
  have hbodies : ((s.absorb id other).partsWithBodies group) =
      (((s.children group).filter s.isMergeable).filter (· ≠ other)).flatMap fun i =>
        ((s.absorb id other).selectors i).map (·, s.bodyText i) := by
    rw [partsWithBodies, h.children_absorb, hmergeable, List.filter_comm]
    refine List.flatMap_congr fun i hi => ?_
    rw [h.bodyText_absorb (List.mem_filter.1 (List.mem_filter.1 hi).1).2]
  have hsame (i : NodeId) (hi : i ≠ id) :
      ((s.absorb id other).selectors i).map (·, s.bodyText i) =
        (s.selectors i).map (·, s.bodyText i) := by
    rw [selectors, h.selector?_absorb_of_ne hi, selectors]
  rw [hbodies, partsWithBodies]
  by_cases hgroup : group = parent
  · subst hgroup
    refine perm_flatMap_filter ((hforest.nodup_children group).filter _) ?_ ?_ h.ne ?_ hsame
    · exact List.mem_filter.2 ⟨hforest.mem_children_of_parent? h.parent_id, h.mergeable_id⟩
    · exact List.mem_filter.2 ⟨hforest.mem_children_of_parent? h.parent_other, h.mergeable_other⟩
    · rw [h.selectors_absorb, List.map_append, h.body]
  · have hnot {i : NodeId} (hi : s.parent? i = some parent) :
        i ∉ (s.children group).filter s.isMergeable := by
      intro hmem
      have hup := hforest.parent?_of_mem_children (List.mem_filter.1 hmem).1
      rw [hi] at hup
      exact hgroup (Option.some.inj hup).symm
    rw [List.filter_eq_self.2 fun i hi => by
      simpa using fun heq : i = other => hnot h.parent_other (heq ▸ hi)]
    rw [List.flatMap_congr fun i hi => hsame i fun heq => hnot h.parent_id (heq ▸ hi)]

/-- What one group taking in another one comes to. The two have one parent and equal bodies. -/
theorem Alike.joins_absorb (h : s.Alike id other parent) : Joins s (s.absorb id other) where
  isFlat := h.isFlat_absorb
  size_eq := h.size_absorb
  isMergeable_eq := h.isMergeable_absorb
  bodyText_eq _ hi := h.bodyText_absorb hi
  alone_eq i hi := by
    have hne : i ≠ id := by
      rintro rfl
      rw [h.mergeable_id] at hi
      cases hi
    rcases h.node?_absorb hne with heq | ⟨g, children, hold, hnew⟩
    · rw [heq]
    · rw [hold, hnew]
      rfl
  parent_eq_or i := by
    rw [h.parent?_absorb]
    by_cases hi : i = other
    · rw [if_pos hi, hi]
      exact .inr ⟨rfl, h.mergeable_other⟩
    · exact .inl (if_neg hi)
  children_eq group := by
    rw [h.children_absorb]
    refine List.filter_congr fun child hchild => ?_
    have hup := h.isFlat.isForest.parent?_of_mem_children hchild
    rw [h.parent?_absorb]
    by_cases hi : child = other <;> simp [hi, hup]
  perm := h.perm_absorb

end

end Sheetsmith.Sheet
