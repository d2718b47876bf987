import Sheetsmith.Proofs.Sheet.Duplicates
import Sheetsmith.Proofs.Vendor.Visiting

namespace Sheetsmith.Vendor

open Sheet Edit

/-- A copy of a subtree was put beside it: the copied nodes stand under new numbers, with another
selector on top. -/
structure PlacedBeside (s t : Sheet) (id parent : NodeId) : Prop where
  parent_eq : s.parent? id = some parent
  placed : Placed s t parent
  size_eq : t.size = (s.copySubtree id).2.size
  node?_eq : ∀ old ∈ id :: s.descendants id, ∃ f : Group → Group,
    (∀ g, (f g).children = g.children.map (s.copyNumber id)) ∧
      t.node? (s.copyNumber id old) = (s.node? old).map (Node.mapGroup f)

/-- When a copy has found its place, it stands beside the original and holds copies of all that is
below it. -/
theorem placedBeside_of_runs_placeCopy {s t : Sheet} (hs : s.IsForest) {id copy : NodeId}
    {selector : String} (h : Runs (placeCopy id selector) s copy t) :
    ∃ parent, PlacedBeside s t id parent := by
  cases hparent : s.parent? id with
  | none =>
    obtain ⟨u, hrun, -⟩ := run_placeCopy_of_detached hs hparent selector
    rw [Runs, hrun] at h
    cases h
  | some parent =>
    obtain ⟨u, hrun, hplaced, -⟩ := run_placeCopy_of_parent hs hparent selector
    obtain rfl : u = t := hrun.final_eq.symm.trans h.final_eq
    have hid : id < s.size := lt_size_of_parent? hparent
    obtain ⟨node, hnode⟩ := exists_node?_of_lt hid
    have hnumber := (hs.copySubtree hnode).1
    have hrelocates := (hs.relocates_copySubtree hid).2
    rw [Runs, run_placeCopy, hnumber] at hrun
    let copied := (s.copySubtree id).2.setSelector s.size (some selector)
    cases hinsert : copied.insertAfter id s.size with
    | error e =>
      dsimp only at hrun
      rw [hinsert] at hrun
      cases hrun
    | ok v =>
      dsimp only at hrun
      rw [hinsert] at hrun
      cases hrun
      obtain ⟨up, hfits, rfl⟩ := insertAfter_eq_ok hinsert
      have hup := hplaced.parent_copy
      rw [parent?_link hfits.lt_size, if_pos rfl] at hup
      cases hup
      refine ⟨parent, hparent, hplaced, by rw [size_link, size_setSelector], fun old hold => ?_⟩
      have hne : s.copyNumber id old ≠ parent :=
        Nat.ne_of_gt (Nat.lt_of_lt_of_le (hs.parent_lt_size hparent) (Nat.le_add_right _ _))
      rw [node?_link, if_neg hne, node?_setSelector, hrelocates old hold]
      split
      · refine ⟨fun g => ⟨some selector, g.children.map (s.copyNumber id)⟩, fun _ => rfl, ?_⟩
        rw [Option.map_map]
        congr 1
        funext node
        cases node <;> rfl
      · exact ⟨fun g => ⟨g.selector, g.children.map (s.copyNumber id)⟩, fun _ => rfl, rfl⟩

namespace PlacedBeside

variable {s t : Sheet} {id parent old x : NodeId} (h : PlacedBeside s t id parent)
include h

theorem declaration?_copyNumber (hold : old ∈ id :: s.descendants id) :
    t.declaration? (s.copyNumber id old) = s.declaration? old := by
  obtain ⟨f, -, hnode⟩ := h.node?_eq old hold
  rw [declaration?, hnode, declaration?]
  cases s.node? old with
  | none => rfl
  | some node => cases node <;> rfl

/-- The copy of a group is a group. Its header may be another one. -/
theorem isSome_group?_copyNumber (hold : old ∈ id :: s.descendants id) :
    (t.group? (s.copyNumber id old)).isSome = (s.group? old).isSome := by
  obtain ⟨f, -, hnode⟩ := h.node?_eq old hold
  rw [group?, hnode, group?]
  cases s.node? old with
  | none => rfl
  | some node => cases node <;> rfl

/-- The children of a copied group are the copies of its children, in order. -/
theorem children_copyNumber (hold : old ∈ id :: s.descendants id) :
    t.children (s.copyNumber id old) = (s.children old).map (s.copyNumber id) := by
  obtain ⟨f, hf, hnode⟩ := h.node?_eq old hold
  rw [children, group?, hnode, children, group?]
  cases s.node? old with
  | none => rfl
  | some node =>
    cases node with
    | leaf | declaration => rfl
    | group g => exact hf g

/-- The new nodes of the tree are copies of nodes of the tree. -/
theorem exists_copyNumber_eq (hs : s.IsForest) (hle : s.size ≤ x) (hx : t.Below x root) :
    ∃ old ∈ id :: s.descendants id, s.Below old root ∧ s.copyNumber id old = x := by
  have hplaced := h.placed
  have hextends : Extends s t := ⟨hplaced.isForest, hplaced.grows⟩
  obtain ⟨up, hxup, -⟩ := Relation.TransGen.head'_iff.1 hx
  obtain ⟨old, hold, hnumber⟩ := hs.exists_copyNumber_eq (lt_size_of_parent? h.parent_eq) hle
    (h.size_eq ▸ lt_size_of_parent? hxup)
  -- The copy is in the tree, so its parent is, which is the parent of what was copied.
  have hcopy : t.Below s.size root := by
    rcases hplaced.eq_or_below hle hs.root_lt_size hx with rfl | hbelow
    · exact hx
    · exact hplaced.isForest.below_root_of_below hx hbelow (Nat.ne_of_gt hs.root_lt_size)
  have hid : s.Below id root := by
    obtain ⟨up, hup, hrest⟩ := Relation.TransGen.head'_iff.1 hcopy
    rw [hplaced.parent_copy] at hup
    cases hup
    rcases Relation.reflTransGen_iff_eq_or_transGen.1 hrest with rfl | hbelow
    · exact .single h.parent_eq
    · exact .head h.parent_eq
        (hextends.below_of_below hs (hs.parent_lt_size h.parent_eq) hbelow)
  refine ⟨old, hold, ?_, hnumber⟩
  rcases List.mem_cons.1 hold with rfl | hbelow
  · exact hid
  · exact (hs.mem_descendants_iff.1 hbelow).trans hid

end PlacedBeside

end Sheetsmith.Vendor
