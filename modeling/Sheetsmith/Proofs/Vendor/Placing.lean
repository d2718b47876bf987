import Sheetsmith.Proofs.Sheet.Copying
import Sheetsmith.Proofs.Vendor.Maintain

namespace Sheetsmith

namespace Sheet

/-- Where the parents of low nodes have numbers below `n`, so have all nodes above them. Nothing is
said of nodes from `m` on, which may hang anywhere. -/
theorem Below.lt_of_parent_lt {s : Sheet} {id top m n : NodeId} (h : s.Below id top)
    (hparent : ∀ id < m, ∀ parent, s.parent? id = some parent → parent < n) (hle : n ≤ m)
    (hid : id < m) : top < n := by
  induction h with
  | single hstep => exact hparent _ hid _ hstep
  | tail _ hstep ih => exact hparent _ (Nat.lt_of_lt_of_le ih hle) _ hstep

end Sheet

namespace Vendor

open Sheet Edit

/-- Puts a copy of a subtree right behind it, under another selector. -/
def placeCopy (id : NodeId) (selector : String) : Edit NodeId := do
  let copy ← modifyGet fun s => s.copySubtree id
  Edit.change (·.setSelector copy (some selector))
  Edit.attempt (·.insertAfter id copy)
  return copy

/-- A block is copied unless one of that name stands beside it: the copy is placed first, and then
its forms are added. -/
theorem copyKeyframes_eq (id : NodeId) (selector : String) (vendor : Vendor) :
    copyKeyframes id selector vendor = (do
      let s ← get
      if ((s.siblings id).filterMap s.selector?).contains selector then pure ()
      else placeCopy id selector >>= expandCopy vendor) := by
  simp only [copyKeyframes, placeCopy, bind_assoc, pure_bind]

/-- A copy that was put into the tree of `s`: it has the next number, everything
below it is new, and nothing else is. -/
structure Placed (s t : Sheet) (parent : NodeId) : Prop where
  isForest : t.IsForest
  size_lt : s.size < t.size
  grows : Grows s.size s t
  parent_copy : t.parent? s.size = some parent
  parent_new : ∀ id top, s.size < id → t.parent? id = some top → s.size ≤ top

/-- Placing a copy ends with its insertion. Where there is no place for it, the copy is left
detached. The only error is that of the insertion. -/
theorem run_placeCopy (s : Sheet) (id : NodeId) (selector : String) :
    (placeCopy id selector).run.run s =
      let copied := (s.copySubtree id).2.setSelector (s.copySubtree id).1 (some selector)
      match copied.insertAfter id (s.copySubtree id).1 with
      | .ok t => (.ok (s.copySubtree id).1, t)
      | .error e => (.error e, copied) := by
  have hcopy : (modifyGet fun s => s.copySubtree id : Edit NodeId).run.run s =
      (.ok (s.copySubtree id).1, (s.copySubtree id).2) := rfl
  have hchange (f : Sheet → Sheet) (t : Sheet) : (change f).run.run t = (.ok (), f t) := rfl
  rw [placeCopy, run_bind, hcopy]
  dsimp only
  rw [run_bind, hchange]
  dsimp only
  rw [run_bind, run_attempt]
  cases ((s.copySubtree id).2.setSelector (s.copySubtree id).1 (some selector)).insertAfter id
    (s.copySubtree id).1 <;> rfl

/-- Without a parent there is no place for a copy. The sheet stays a forest, with the copy as a tree
of its own. -/
theorem run_placeCopy_of_detached {s : Sheet} (hs : s.IsForest) {id : NodeId}
    (hparent : s.parent? id = none) (selector : String) :
    ∃ t, (placeCopy id selector).run.run s = (.error (.detached id), t) ∧ t.IsForest ∧
      Grows s.size s t := by
  have hcopied : (s.copySubtree id).1 = s.size ∧ (s.copySubtree id).2.IsForest ∧
      Grows s.size s (s.copySubtree id).2 ∧ (s.copySubtree id).2.parent? id = none := by
    cases hnode : s.node? id with
    | none =>
      have hnil : s.children id = [] := children_eq_nil_of_group? (by rw [group?, hnode])
      have hcopy : s.copySubtree id = (s.size, s) := by
        rw [copySubtree, copyNode, hnode, hnil]
        cases s.size <;> rfl
      rw [hcopy]
      exact ⟨rfl, hs, .refl _ _, hparent⟩
    | some node =>
      obtain ⟨hnumber, hcopying⟩ := hs.copySubtree hnode
      refine ⟨hnumber, hcopying.isForest, hcopying.grows, ?_⟩
      rw [hcopying.parent_old id (lt_size_of_node? hnode), hparent]
  obtain ⟨hnumber, hforest, hgrows, htop⟩ := hcopied
  refine ⟨_, ?_, hforest.setSelector s.size (some selector),
    hgrows.trans (Grows.setSelector (Nat.le_refl _) (some selector))⟩
  rw [run_placeCopy, hnumber]
  dsimp only
  rw [insertAfter, parent?_setSelector, htop]

/-- Beside a node with a parent there is always a place for its copy. The node may be a group, a
declaration or a leaf, and only a group gets the selector. -/
theorem run_placeCopy_of_parent {s : Sheet} (hs : s.IsForest) {id parent : NodeId}
    (hparent : s.parent? id = some parent) (selector : String) :
    ∃ t, Runs (placeCopy id selector) s s.size t ∧ Placed s t parent ∧
      ((s.group? id).isSome → t.selector? s.size = some selector) ∧
      ∀ group < s.size, t.children group =
        if group = parent then placeAfter id s.size (s.children group) else s.children group := by
  have hid : id < s.size := lt_size_of_parent? hparent
  have hup : parent < s.size := hs.parent_lt_size hparent
  obtain ⟨node, hnode⟩ := exists_node?_of_lt hid
  obtain ⟨hnumber, hcopying⟩ := hs.copySubtree hnode
  generalize hcopied : (s.copySubtree id).2 = copied at hcopying
  let u := copied.setSelector s.size (some selector)
  have hu : u.IsForest := hcopying.isForest.setSelector s.size (some selector)
  have hparentU (i : NodeId) : u.parent? i = copied.parent? i :=
    parent?_setSelector copied s.size i (some selector)
  have hsize : s.size < u.size := by
    rw [size_setSelector]
    exact hcopying.size_lt
  have hgrowsU : Grows s.size s u :=
    hcopying.grows.trans (Grows.setSelector (Nat.le_refl _) (some selector))
  have hgroup : (u.group? parent).isSome := by
    obtain ⟨g, hg⟩ := hs.exists_group_of_parent? hparent
    rw [group?_setSelector, if_neg (Nat.ne_of_lt hup), group?, hcopying.node_old parent hup,
      ← group?, hg]
    rfl
  have htop : u.parent? s.size = none := by rw [hparentU, hcopying.top]
  have hold : ∀ i < s.size, ∀ top, u.parent? i = some top → top < s.size := by
    intro i hi top hup
    rw [hgrowsU.parent i hi] at hup
    exact hs.parent_lt_size hup
  have hinsert : u.insertAfter id s.size = .ok (u.link parent s.size (placeAfter id s.size)) := by
    have hdetached : u.checkDetached s.size = .ok () :=
      checkDetached_eq_ok hsize (Nat.ne_of_gt hs.root_lt_size) htop
    rw [insertAfter, hgrowsU.parent id hid, hparent]
    dsimp only
    rw [hdetached, checkGroup, if_pos hgroup]
    rfl
  refine ⟨u.link parent s.size (placeAfter id s.size), ?_, ⟨?_, ?_, ?_, ?_, ?_⟩, ?_, ?_⟩
  · rw [Runs, run_placeCopy, hnumber, hcopied]
    dsimp only
    rw [hinsert]
  · refine hu.link hgroup hsize (Nat.ne_of_gt hs.root_lt_size) htop (Nat.ne_of_lt hup) ?_
      (places_placeAfter id s.size)
    exact fun hbelow => Nat.lt_irrefl _ (hbelow.lt_of_parent_lt hold (Nat.le_refl _) hup)
  · rwa [size_link]
  · exact hgrowsU.trans (Grows.link hgroup hsize (Nat.le_refl _) (places_placeAfter id s.size))
  · rw [parent?_link hsize, if_pos rfl]
  · intro i top hi htop
    rw [parent?_link hsize, if_neg (Nat.ne_of_gt hi), hparentU] at htop
    exact hcopying.parent_new i top (Nat.le_of_lt hi) htop
  · intro hsome
    obtain ⟨g, hg⟩ := Option.isSome_iff_exists.1 hsome
    obtain ⟨g', hg'⟩ := hcopying.exists_group hnode hg
    rw [selector?, group?_link, if_neg (Nat.ne_of_gt hup), group?_setSelector, if_pos rfl, hg']
    rfl
  · intro group hlt
    rw [children_link u hgroup, children_setSelector, hcopying.children_old hlt]

section

variable {s t u : Sheet} {parent : NodeId}

/-- Only new nodes lie below the copy. -/
theorem Placed.lt_of_below (hs : s.IsForest) (h : Placed s t parent) (hparent : parent < s.size)
    {id : NodeId} (hbelow : t.Below id s.size) : s.size < id := by
  have hup : ∀ i < s.size + 1, ∀ top, t.parent? i = some top → top < s.size := by
    intro i hi top htop
    rcases Nat.lt_or_eq_of_le (Nat.le_of_lt_succ hi) with hlt | rfl
    · rw [h.grows.parent i hlt] at htop
      exact hs.parent_lt_size htop
    · rw [h.parent_copy] at htop
      cases htop
      exact hparent
  apply Nat.lt_of_not_le
  intro hle
  exact Nat.lt_irrefl _ (hbelow.lt_of_parent_lt hup (Nat.le_succ _) (Nat.lt_succ_of_le hle))

/-- Whatever changes below the copy, the old groups have the same children. The copy itself is in
its place in both. -/
theorem Placed.children_eq (ht : Placed s t parent) (hu : Placed s u parent)
    (h : Grows (s.size + 1) t u) {group : NodeId} (hgroup : group < s.size) :
    u.children group = t.children group := by
  have hlow (v : Sheet) (hv : Placed s v parent) :
      (v.children group).filter (· < s.size + 1) = v.children group := by
    rw [List.filter_eq_self]
    intro child hchild
    have hparent := hv.isForest.parent?_of_mem_children hchild
    refine decide_eq_true (Nat.lt_of_not_le fun hle => ?_)
    exact Nat.not_lt.2 (hv.parent_new child group (Nat.lt_of_succ_le hle) hparent) hgroup
  rw [← hlow u hu, ← hlow t ht, h.children group (Nat.lt_succ_of_lt hgroup)]

theorem Placed.insertDeclarationAfter (h : Placed s t parent) {id : NodeId} (hid : s.size < id)
    (name value : String) :
    Placed s ((insertDeclarationAfter id name value).final t) parent ∧
      Grows (s.size + 1) t ((insertDeclarationAfter id name value).final t) := by
  obtain ⟨hforest, hgrows⟩ :=
    final_insertDeclarationAfter h.isForest (Nat.succ_le_of_lt h.size_lt) id name value
  refine ⟨⟨hforest, ?_, ?_, ?_, ?_⟩, hgrows⟩
  · exact Nat.lt_of_lt_of_le h.size_lt hgrows.size_le
  · exact h.grows.trans (hgrows.mono (Nat.le_succ _))
  · rw [hgrows.parent _ (Nat.lt_succ_self _), h.parent_copy]
  · intro i top hi htop
    rw [final, run_insertDeclarationAfter h.isForest] at htop
    cases hbeside : t.parent? id with
    | none =>
      rw [hbeside, parent?_create] at htop
      exact h.parent_new i top hi htop
    | some beside =>
      rw [hbeside] at htop
      dsimp only at htop
      rw [parent?_link (by simp)] at htop
      split at htop
      · cases htop
        exact h.parent_new id _ hid hbeside
      · rw [parent?_create] at htop
        exact h.parent_new i top hi htop

theorem Placed.remove (h : Placed s t parent) {id : NodeId} (hid : s.size < id) :
    Placed s (t.remove id) parent ∧ Grows (s.size + 1) t (t.remove id) := by
  have hgrows : Grows (s.size + 1) t (t.remove id) := Grows.remove (Nat.succ_le_of_lt hid)
  refine ⟨⟨h.isForest.remove id, ?_, ?_, ?_, ?_⟩, hgrows⟩
  · rw [size_remove]
    exact h.size_lt
  · exact h.grows.trans (hgrows.mono (Nat.le_succ _))
  · rw [hgrows.parent _ (Nat.lt_succ_self _), h.parent_copy]
  · intro i top hi htop
    rw [parent?_remove] at htop
    split at htop
    · cases htop
    · exact h.parent_new i top hi htop

/-- The forms inside a copy are added and taken out below the copy only. This holds of the sheet
that is left, whether the edit succeeds or fails. -/
theorem Placed.expandCopy (hs : s.IsForest) (h : Placed s t parent) (hparent : parent < s.size)
    (vendor : Vendor) :
    Placed s ((expandCopy vendor s.size).final t) parent ∧
      Grows (s.size + 1) t ((expandCopy vendor s.size).final t) := by
  let holds (u : Sheet) : Prop := Placed s u parent ∧ Grows (s.size + 1) t u
  have hfits : ∀ u, holds u → ∀ id ∈ u.declarations s.size, s.size < id := by
    rintro u ⟨hu, -⟩ id hid
    have hmem := (List.mem_filter.1 hid).1
    exact hu.lt_of_below hs hparent (hu.isForest.mem_descendants_iff.1 hmem)
  have hvisit : ∀ id, s.size < id →
      Maintains holds (expandDeclaration (.only vendor) true id) := by
    intro id hid
    apply maintains_expandDeclaration
    · rintro name value u ⟨hu, hgrows⟩
      obtain ⟨hplaced, hstep⟩ := hu.insertDeclarationAfter hid name value
      exact ⟨hplaced, hgrows.trans hstep⟩
    · rintro - _ _ _ u - ⟨hu, hgrows⟩ -
      obtain ⟨hplaced, hstep⟩ := hu.remove hid
      exact ⟨hplaced, hgrows.trans hstep⟩
  exact maintains_visitRounds hfits hvisit roundLimit 0 t ⟨h, .refl _ _⟩

end

end Vendor

end Sheetsmith
