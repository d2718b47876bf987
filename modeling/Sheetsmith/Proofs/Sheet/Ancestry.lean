import Sheetsmith.Proofs.Sheet.Preorder

namespace Sheetsmith.Sheet

/-- The chain of nodes that starts at a node and goes up by the parent links. -/
inductive Climbs (s : Sheet) : Option NodeId → List NodeId → Prop where
  | top : Climbs s none []
  | step {id : NodeId} {ids : List NodeId} (hrest : Climbs s (s.parent? id) ids) :
      Climbs s (some id) (id :: ids)

section

variable {s : Sheet} {start : Option NodeId} {ids : List NodeId}

/-- The walk up gives the chain of nodes above its start, if it has at least as many steps as the
chain has nodes. Nothing is assumed about the sheet: the chain itself is what shows that the walk
ends. -/
theorem Climbs.climb_eq (h : s.Climbs start ids) {steps : Nat} (hsteps : ids.length ≤ steps) :
    s.climb steps start = ids := by
  induction h generalizing steps with
  | top => cases steps <;> rfl
  | @step id ids hrest ih =>
    cases steps with
    | zero => simp at hsteps
    | succ steps => rw [climb, ih (by simpa using hsteps)]

/-- There is only one chain of nodes above a start, since each node has at most one parent. -/
theorem Climbs.unique {ids' : List NodeId} (h : s.Climbs start ids) (h' : s.Climbs start ids') :
    ids = ids' := by
  rw [← h.climb_eq (Nat.le_max_left _ _), h'.climb_eq (Nat.le_max_right ids.length _)]

/-- Where every parent lies less deep than its children, all nodes of a chain lie less deep than the
node that it starts above. Any measure of depth may be taken. -/
theorem Climbs.depth_lt {depth : NodeId → Nat}
    (hdepth : ∀ child parent, s.parent? child = some parent → depth parent < depth child)
    (h : s.Climbs start ids) {id : NodeId} (hid : s.parent? id = start) :
    ∀ x ∈ ids, depth x < depth id := by
  induction h generalizing id with
  | top => simp
  | @step parent ids hrest ih =>
    have hlt := hdepth id parent hid
    intro x hx
    rcases List.mem_cons.1 hx with rfl | hx
    · exact hlt
    · exact Nat.lt_trans (ih rfl x hx) hlt

/-- No node stands twice in a chain, where every parent lies less deep than its children. Nothing
else is assumed about the sheet, which need not be a forest. -/
theorem Climbs.nodup {depth : NodeId → Nat}
    (hdepth : ∀ child parent, s.parent? child = some parent → depth parent < depth child)
    (h : s.Climbs start ids) : ids.Nodup := by
  induction h with
  | top => exact .nil
  | @step id ids hrest ih =>
    refine List.nodup_cons.2 ⟨fun hmem => ?_, ih⟩
    exact Nat.lt_irrefl _ (hrest.depth_lt hdepth rfl id hmem)

end

section

variable {s : Sheet} {id top other : NodeId}

/-- The way up is a line: of two nodes above a third one, one is above the other, or they are the
same. This needs no forest, only that a node has one parent link. -/
theorem Below.eq_or_below (h : s.Below id top) (h' : s.Below id other) :
    top = other ∨ s.Below top other ∨ s.Below other top := by
  induction h using Relation.TransGen.head_induction_on with
  | @single id hparent =>
    obtain ⟨parent, hparent', hrest⟩ := Relation.TransGen.head'_iff.1 h'
    rw [hparent] at hparent'
    cases hparent'
    rcases Relation.reflTransGen_iff_eq_or_transGen.1 hrest with heq | hbelow
    · exact .inl heq.symm
    · exact .inr (.inl hbelow)
  | @head id up hparent hup ih =>
    obtain ⟨parent, hparent', hrest⟩ := Relation.TransGen.head'_iff.1 h'
    rw [hparent] at hparent'
    cases hparent'
    rcases Relation.reflTransGen_iff_eq_or_transGen.1 hrest with rfl | hbelow
    · exact .inr (.inr hup)
    · exact ih hbelow

/-- A node without a parent is below nothing. -/
theorem not_below_of_parent?_eq_none (h : s.parent? id = none) : ¬ s.Below id top := by
  intro hbelow
  obtain ⟨parent, hparent, -⟩ := Relation.TransGen.head'_iff.1 hbelow
  rw [h] at hparent
  cases hparent

end

namespace IsForest

variable {s : Sheet} (hs : s.IsForest)
include hs

theorem not_below_self (id : NodeId) : ¬ s.Below id id := by
  obtain ⟨depth, hdepth⟩ := hs.grounded
  have hlt : ∀ i, s.Below i id → depth id < depth i := by
    intro i h
    induction h using Relation.TransGen.head_induction_on with
    | single hparent => exact hdepth _ _ hparent
    | head hparent _ ih => exact Nat.lt_trans ih (hdepth _ _ hparent)
  exact fun h => Nat.lt_irrefl _ (hlt id h)

/-- Of two children of one parent none is below the other. -/
theorem not_below_sibling {id other parent : NodeId} (hid : s.parent? id = some parent)
    (hother : s.parent? other = some parent) : ¬ s.Below id other := by
  intro hbelow
  obtain ⟨up, hup, hrest⟩ := Relation.TransGen.head'_iff.1 hbelow
  rw [hid] at hup
  cases hup
  exact hs.not_below_self other (Relation.TransGen.head' hother hrest)

/-- What is above a node of the tree, but for the root, is in the tree. The root has no parent in a
forest, so the way up cannot leave the tree before it ends there. -/
theorem below_root_of_below {id top : NodeId} (hid : s.Below id root) (htop : s.Below id top)
    (hne : top ≠ root) : s.Below top root := by
  rcases htop.eq_or_below hid with heq | hbelow | hbelow
  · exact absurd heq hne
  · exact hbelow
  · exact absurd hbelow (not_below_of_parent?_eq_none hs.root_parent)

/-- Every way up ends in a forest, also one that starts at a detached node or at a number that no
node has. -/
theorem exists_climbs (id : NodeId) : ∃ ids, s.Climbs (s.parent? id) ids := by
  obtain ⟨depth, hdepth⟩ := hs.grounded
  induction hn : depth id using Nat.strongRecOn generalizing id with
  | ind n ih =>
    cases hparent : s.parent? id with
    | none => exact ⟨[], .top⟩
    | some parent =>
      obtain ⟨ids, hids⟩ := ih (depth parent) (hn ▸ hdepth id parent hparent) parent rfl
      exact ⟨parent :: ids, .step hids⟩

/-- All nodes of a chain exist when the first one does. -/
theorem lt_size_of_climbs {start : Option NodeId} {ids : List NodeId} (h : s.Climbs start ids)
    (hstart : ∀ id, start = some id → id < s.size) : ∀ x ∈ ids, x < s.size := by
  induction h with
  | top => simp
  | @step id ids hrest ih =>
    intro x hx
    rcases List.mem_cons.1 hx with rfl | hx
    · exact hstart x rfl
    · exact ih (fun parent hparent => hs.parent_lt_size hparent) x hx

/-- The upward walk has steps enough to reach the top: the nodes that it meets are different ones,
so there are no more of them than slots. -/
theorem climbs_ancestors (id : NodeId) : s.Climbs (s.parent? id) (s.ancestors id) := by
  obtain ⟨ids, hids⟩ := hs.exists_climbs id
  obtain ⟨depth, hdepth⟩ := hs.grounded
  have hlt := hs.lt_size_of_climbs hids fun parent hparent => hs.parent_lt_size hparent
  have hsub : ids ⊆ List.range s.size := fun x hx => List.mem_range.2 (hlt x hx)
  have hle := (List.subperm_of_subset (hids.nodup hdepth) hsub).length_le
  rw [ancestors, hids.climb_eq (by simpa using hle)]
  exact hids

/-- A node's ancestors are its parent and the parent's ancestors. So the number of steps that the
walk was given does not show in its result. -/
theorem ancestors_eq (id : NodeId) :
    s.ancestors id =
      match s.parent? id with
      | some parent => parent :: s.ancestors parent
      | none => [] := by
  have hclimbs := hs.climbs_ancestors id
  cases hparent : s.parent? id with
  | none =>
    rw [hparent] at hclimbs
    exact hclimbs.unique .top
  | some parent =>
    rw [hparent] at hclimbs
    exact hclimbs.unique (.step (hs.climbs_ancestors parent))

end IsForest

end Sheetsmith.Sheet
