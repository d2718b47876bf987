import Sheetsmith.Proofs.Optimize.Passes
import Sheetsmith.Proofs.Sheet.Attached
import Sheetsmith.Proofs.Sheet.Slimming

namespace Sheetsmith.Sheet

variable {s t : Sheet} {id other : NodeId}

/-- The children of one group are in the tree together. -/
theorem IsForest.below_root_of_mem_family (hs : s.IsForest) (hid : s.Below id root)
    (h : other ∈ s.family id) : s.Below other root := by
  unfold family at h
  obtain ⟨parent, hparent, hrest⟩ := Relation.TransGen.head'_iff.1 hid
  rw [hparent] at h
  exact Relation.TransGen.head' (hs.parent?_of_mem_children h) hrest

theorem IsForest.below_root_of_isAttached (hs : s.IsForest) (h : s.isAttached id = true)
    (hid : id ≠ root) : s.Below id root :=
  hs.mem_descendants_iff.1 ((hs.isAttached_iff.1 h).resolve_left hid)

/-- The groups behind a group are children of the same parent, in their order. -/
theorem followingGroups_sublist (s : Sheet) (id : NodeId) :
    (s.followingGroups id).Sublist (s.family id) :=
  ((List.drop_sublist 1 _).trans (List.dropWhile_sublist _)).trans List.filter_sublist

/-- A group does not stand behind itself. -/
theorem IsForest.not_mem_followingGroups (hs : s.IsForest) (id : NodeId) :
    id ∉ s.followingGroups id := by
  have hnodup : (s.family id).Nodup := by
    unfold family
    split
    · exact hs.nodup_children _
    · exact List.nodup_nil
  unfold followingGroups
  generalize hids : (s.family id).filter (fun d => s.kind? d == some .group) = ids
  replace hnodup : ids.Nodup := hids ▸ hnodup.filter _
  have hsublist := List.dropWhile_sublist (l := ids) (· != id)
  cases hrest : ids.dropWhile (· != id) with
  | nil => exact List.not_mem_nil
  | cons first rest =>
    have hfirst : first = id := by
      have hhead := List.head?_dropWhile_not (· != id) ids
      simpa [hrest] using hhead
    rw [hrest, hfirst] at hsublist
    exact (List.nodup_cons.1 (hnodup.sublist hsublist)).1

/-- Two groups of one parent in the tree. -/
structure Beside (s : Sheet) (id other : NodeId) : Prop where
  isDocument : s.IsDocument
  below : s.Below id root
  parent : s.parent? other = s.parent? id
  ne : other ≠ id

theorem Beside.ne_root (h : s.Beside id other) : id ≠ root := by
  rintro rfl
  exact h.isDocument.isForest.not_below_self _ h.below

/-- Of two groups of one parent both are in the tree. -/
theorem Beside.below_other (h : s.Beside id other) : s.Below other root := by
  obtain ⟨parent, hparent, hrest⟩ := Relation.TransGen.head'_iff.1 h.below
  exact Relation.TransGen.head' (h.parent.trans hparent) hrest

/-- Only the group that is taken in loses its parent. -/
theorem parent?_absorb_of_ne {i : NodeId} (hne : i ≠ other) :
    (s.absorb id other).parent? i = s.parent? i := by
  unfold absorb
  split
  · rw [parent?_remove, if_neg hne, parent?_setSelector]
  · rfl

/-- A group that takes another one in stays in the tree. -/
theorem Beside.below_absorb (h : s.Beside id other) : (s.absorb id other).Below id root := by
  obtain ⟨parent, hparent, -⟩ := Relation.TransGen.head'_iff.1 h.below
  unfold absorb
  split
  · have hset (selector : String) (i top : NodeId) :
        (s.setSelector id (some selector)).Below i top ↔ s.Below i top :=
      below_congr (parent?_setSelector s id · _)
    refine Below.remove ((hset _ _ _).2 h.below) h.ne.symm ?_
    rw [hset]
    exact h.isDocument.isForest.not_below_sibling hparent (h.parent.trans hparent)
  · exact h.below

/-- While the groups behind a group are taken in one by one, the others stay in the tree. The bodies
are not looked at here: what one taking in keeps is kept, whichever groups are equal. -/
theorem foldl_absorbEqual_induction {motive : Sheet → Prop} (h : motive s)
    (habsorb : ∀ t id other, t.Beside id other → motive t → motive (t.absorb id other))
    (body : String) {ids : List NodeId} (hnodup : ids.Nodup)
    (hids : ∀ other ∈ ids, s.Beside id other) : motive (ids.foldl (absorbEqual id body) s) := by
  induction ids generalizing s with
  | nil => exact h
  | cons other ids ih =>
    obtain ⟨hother, hnodup⟩ := List.nodup_cons.1 hnodup
    have hbeside := hids other (by simp)
    rw [List.foldl_cons]
    unfold absorbEqual
    split
    · refine ih (habsorb s id other hbeside h) hnodup fun i hi => ?_
      have hi' := hids i (by simp [hi])
      have hne : i ≠ other := fun heq => hother (heq ▸ hi)
      refine ⟨hi'.isDocument.absorb hi'.ne_root other, hbeside.below_absorb, ?_, hi'.ne⟩
      rw [parent?_absorb_of_ne hne, parent?_absorb_of_ne hbeside.ne.symm, hi'.parent]
    · exact ih h hnodup fun i hi => hids i (by simp [hi])

/-- What holds of a document and passes to the sheet in which one of two groups of the same parent
takes the other one in, holds when all equal groups are joined. The two are known to be in the tree,
and nothing is said about their bodies. -/
theorem IsDocument.mergeGroups_induction {motive : Sheet → Prop} (hs : s.IsDocument) (h : motive s)
    (habsorb : ∀ t id other, t.Beside id other → motive t → motive (t.absorb id other)) :
    motive s.mergeGroups := by
  have hfold := (s.groups root).foldlRecOn (motive := fun t : Sheet => t.IsDocument ∧ motive t)
    Sheet.absorbFollowing ⟨hs, h⟩ ?_
  · exact hfold.2
  rintro t ⟨ht, htmotive⟩ id hid
  have hne := hs.ne_root_of_mem_groups hid
  refine ⟨ht.absorbFollowing hne, ?_⟩
  unfold Sheet.absorbFollowing
  split
  · next hmerges =>
    have hforest := ht.isForest
    have hbelow := hforest.below_root_of_isAttached (Bool.and_eq_true _ _ ▸ hmerges).1 hne
    obtain ⟨parent, hparent, -⟩ := Relation.TransGen.head'_iff.1 hbelow
    have hsublist := t.followingGroups_sublist id
    rw [family, hparent] at hsublist
    refine foldl_absorbEqual_induction htmotive habsorb _
      ((hforest.nodup_children parent).sublist hsublist) fun other hother => ?_
    refine ⟨ht, hbelow, ?_, ?_⟩
    · rw [hforest.parent?_of_mem_children (hsublist.subset hother), hparent]
    · rintro rfl
      exact hforest.not_mem_followingGroups _ hother
  · exact htmotive

end Sheetsmith.Sheet
