import Sheetsmith.Proofs.Optimize.Absorbing

namespace Sheetsmith.Sheet

section

variable {s t u : Sheet} {id other parent : NodeId}

/-- What stands behind a node in a list is found when the list is cut behind the node. -/
theorem mem_drop_dropWhile_of_sublist {ids : List NodeId} (h : [id, other].Sublist ids) :
    other ∈ (ids.dropWhile (· != id)).drop 1 := by
  induction ids with
  | nil => cases h
  | cons first ids ih =>
    by_cases hfirst : first = id
    · have hmem : other ∈ ids := by
        cases h with
        | cons _ hrest => exact hrest.subset (by simp)
        | cons_cons _ hrest => exact hrest.subset (by simp)
      simpa [hfirst] using hmem
    · have hrest : [id, other].Sublist ids := by
        cases h with
        | cons _ hrest => exact hrest
        | cons_cons _ _ => exact absurd rfl hfirst
      simpa [hfirst] using ih hrest

theorem kind?_of_isMergeable (h : s.isMergeable id = true) : s.kind? id = some .group := by
  obtain ⟨g, hg⟩ := Option.isSome_iff_exists.1 (isSome_group?_of_isMergeable h)
  rw [kind?, group?_eq_some_iff.1 hg]
  rfl

/-- The program finds every ordinary group that stands behind an ordinary group. The two may have
comments and other groups between them. -/
theorem mem_followingGroups (hparent : s.parent? id = some parent)
    (hbehind : [id, other].Sublist (s.children parent)) (hid : s.isMergeable id = true)
    (hother : s.isMergeable other = true) : other ∈ s.followingGroups id := by
  unfold followingGroups family
  rw [hparent]
  apply mem_drop_dropWhile_of_sublist
  simpa [kind?_of_isMergeable hid, kind?_of_isMergeable hother] using
    hbehind.filter fun d => s.kind? d == some .group

/-- A group takes in, one after the other, the groups of a list that have its body, and leaves no
such group beside it. The bodies are compared as they were at the start, and do not change on the
way. -/
theorem joins_foldl_absorbEqual {ids : List NodeId} {body : String} (hs : s.IsFlat)
    (hparent : s.parent? id = some parent) (hid : s.isMergeable id = true)
    (hbody : s.bodyText id = body) (hnodup : ids.Nodup)
    (hids : ∀ other ∈ ids, other ≠ id ∧ s.parent? other = some parent) :
    Joins s (ids.foldl (absorbEqual id body) s) ∧
      ∀ other ∈ ids, s.isMergeable other = true →
        (ids.foldl (absorbEqual id body) s).parent? other ≠ none → s.bodyText other ≠ body := by
  induction ids generalizing s with
  | nil => exact ⟨.refl hs, by simp⟩
  | cons other ids ih =>
    obtain ⟨hfresh, hnodup⟩ := List.nodup_cons.1 hnodup
    obtain ⟨hne, hother⟩ := hids other List.mem_cons_self
    have hids' : ∀ i ∈ ids, i ≠ id ∧ s.parent? i = some parent :=
      fun i hi => hids i (List.mem_cons_of_mem _ hi)
    rw [List.foldl_cons]
    unfold absorbEqual
    split
    · next hequal =>
      obtain ⟨hmergeable, hsame⟩ := Bool.and_eq_true_iff.1 hequal
      have halike : s.Alike id other parent :=
        ⟨hs, hparent, hother, hne, hid, hmergeable, by rw [hbody, beq_iff_eq.1 hsame]⟩
      have hjoins := halike.joins_absorb
      have hup (i : NodeId) (hi : i ≠ other) : (s.absorb id other).parent? i = s.parent? i := by
        rw [halike.parent?_absorb, if_neg hi]
      obtain ⟨hrest, hleft⟩ := ih hjoins.isFlat ((hup id hne.symm).trans hparent)
        ((hjoins.isMergeable_eq id).trans hid) ((hjoins.bodyText_eq id hid).trans hbody) hnodup
        fun i hi => ⟨(hids' i hi).1, (hup i fun heq => hfresh (heq ▸ hi)).trans (hids' i hi).2⟩
      refine ⟨hjoins.trans hrest, fun i hi hmergeable' hstays => ?_⟩
      rcases List.mem_cons.1 hi with rfl | hi
      · -- The group that was taken in has no parent any more.
        have hgone : (s.absorb id i).parent? i = none := by rw [halike.parent?_absorb, if_pos rfl]
        rcases hrest.parent_eq_or i with heq | ⟨hnone, -⟩
        · exact absurd (heq.trans hgone) hstays
        · exact absurd hnone hstays
      · rw [← hjoins.bodyText_eq i hmergeable']
        exact hleft i hi ((hjoins.isMergeable_eq i).trans hmergeable') hstays
    · next hdiffers =>
      obtain ⟨hrest, hleft⟩ := ih hs hparent hid hbody hnodup hids'
      refine ⟨hrest, fun i hi hmergeable hstays hsame => ?_⟩
      rcases List.mem_cons.1 hi with rfl | hi
      · exact hdiffers (by rw [hmergeable, hsame, beq_self_eq_true, Bool.and_self])
      · exact hleft i hi hmergeable hstays hsame

/-- No ordinary group behind an ordinary group has the same body. -/
def Apart (s : Sheet) (id : NodeId) : Prop :=
  ∀ parent other, [id, other].Sublist ((s.children parent).filter s.isMergeable) →
    s.bodyText id ≠ s.bodyText other

/-- A group that has no equal behind it gets none by the joining of others. -/
theorem Joins.apart (h : Joins s t) (hs : s.Apart id) : t.Apart id := by
  intro parent other hbehind
  have hmergeable : t.isMergeable = s.isMergeable := funext h.isMergeable_eq
  have hsublist : ((t.children parent).filter t.isMergeable).Sublist
      ((s.children parent).filter s.isMergeable) := by
    rw [h.children_eq, hmergeable]
    exact List.filter_sublist.filter _
  have hold := hbehind.trans hsublist
  have hmem (i : NodeId) (hi : i ∈ [id, other]) : s.isMergeable i = true :=
    (List.mem_filter.1 (hold.subset hi)).2
  rw [h.bodyText_eq id (hmem id (by simp)), h.bodyText_eq other (hmem other (by simp))]
  exact hs parent other hold

/-- What a group taking in all groups of its body comes to. A detached group takes in none. Nothing
is assumed about the node, which may also be no group at all. -/
theorem IsFlat.joins_absorbFollowing (hs : s.IsFlat) (id : NodeId) :
    Joins s (s.absorbFollowing id) ∧
      (s.isAttached id = true → (s.absorbFollowing id).Apart id) := by
  unfold absorbFollowing
  split
  · next hvisit =>
    have hid := (Bool.and_eq_true_iff.1 hvisit).2
    have hsublist := s.followingGroups_sublist id
    unfold family at hsublist
    cases hparent : s.parent? id with
    | none =>
      rw [hparent] at hsublist
      rw [List.sublist_nil.1 hsublist]
      refine ⟨.refl hs, fun _ parent other hbehind => ?_⟩
      have hmem := (List.mem_filter.1 (hbehind.subset List.mem_cons_self)).1
      have hparent' := hs.isForest.parent?_of_mem_children hmem
      simp [hparent] at hparent'
    | some parent =>
      rw [hparent] at hsublist
      obtain ⟨hjoins, hleft⟩ := joins_foldl_absorbEqual hs hparent hid rfl
        ((hs.isForest.nodup_children parent).sublist hsublist) fun other hother => by
          refine ⟨?_, hs.isForest.parent?_of_mem_children (hsublist.subset hother)⟩
          rintro rfl
          exact hs.isForest.not_mem_followingGroups other hother
      refine ⟨hjoins, fun _ parent' other hbehind hsame => ?_⟩
      obtain ⟨hchild, hmergeable⟩ :=
        List.mem_filter.1 (hbehind.subset (List.mem_cons_of_mem _ List.mem_cons_self))
      rw [hjoins.isMergeable_eq] at hmergeable
      rw [hjoins.bodyText_eq id hid, hjoins.bodyText_eq other hmergeable] at hsame
      have hsub := hbehind.trans List.filter_sublist
      have hparent' := hjoins.parent_eq
        (hjoins.isFlat.isForest.parent?_of_mem_children (hsub.subset List.mem_cons_self))
      rw [hjoins.children_eq] at hsub
      refine hleft other ?_ hmergeable ?_ hsame.symm
      · exact mem_followingGroups hparent' (hsub.trans List.filter_sublist) hid hmergeable
      · rw [hjoins.isFlat.isForest.parent?_of_mem_children hchild]
        exact Option.some_ne_none _
  · next hvisit =>
    refine ⟨.refl hs, fun hattached parent other hbehind => ?_⟩
    have hid := (List.mem_filter.1 (hbehind.subset List.mem_cons_self)).2
    exact absurd (by rw [hattached, hid, Bool.and_self]) hvisit

/-- A group that has kept its parent is in the tree still: what is above it holds groups, so it is
not ordinary and has kept its parent too. -/
theorem Joins.below_root (h : Joins s t) (hs : s.IsFlat) (hid : s.Below id root)
    (hgroup : (s.group? id).isSome) (hparent : t.parent? id ≠ none) : t.Below id root := by
  induction hid using Relation.TransGen.head_induction_on with
  | @single id hup =>
    obtain ⟨parent, hparent⟩ := Option.ne_none_iff_exists'.1 hparent
    obtain rfl := Option.some.inj ((h.parent_eq hparent).symm.trans hup)
    exact .single hparent
  | @head id up hup hrest ih =>
    obtain ⟨parent, hparent⟩ := Option.ne_none_iff_exists'.1 hparent
    obtain rfl := Option.some.inj ((h.parent_eq hparent).symm.trans hup)
    have hmem := hs.isForest.mem_children_of_parent? hup
    have hplain : s.isMergeable parent ≠ true := by
      intro hmergeable
      rw [hs.flat parent hmergeable id hmem] at hgroup
      cases hgroup
    have hkept := (h.parent_eq_or parent).resolve_right fun hgone => hplain hgone.2
    obtain ⟨g, hg⟩ := exists_group_of_mem_children hmem
    obtain ⟨above, habove, -⟩ := Relation.TransGen.head'_iff.1 hrest
    refine .head hparent (ih (by rw [hg]; rfl) ?_)
    rw [hkept, habove]
    exact Option.some_ne_none _

/-- A group that has left the tree meanwhile has no equal behind it either. -/
theorem Joins.apart_absorbFollowing (h : Joins s t) (hs : s.IsFlat) (hid : id ∈ s.groups root) :
    (t.absorbFollowing id).Apart id := by
  obtain ⟨hjoins, hapart⟩ := h.isFlat.joins_absorbFollowing id
  intro parent other hbehind
  have hmem := List.mem_filter.1 (hbehind.subset List.mem_cons_self)
  have hparent := hjoins.parent_eq (hjoins.isFlat.isForest.parent?_of_mem_children hmem.1)
  have hmergeable : s.isMergeable id = true := by
    rw [← h.isMergeable_eq, ← hjoins.isMergeable_eq]
    exact hmem.2
  have hbelow := h.below_root hs (hs.isForest.below_of_mem_groups hid)
    (isSome_group?_of_isMergeable hmergeable) (by rw [hparent]; exact Option.some_ne_none _)
  refine hapart ?_ parent other hbehind
  exact h.isFlat.isForest.isAttached_iff.2 (.inr (h.isFlat.isForest.mem_descendants_iff.2 hbelow))

/-- The pass over a list of groups. Each group that had its turn stays apart from those behind it.
The list may be any part of the groups of the old sheet, also of those that were taken in since. -/
theorem Joins.joins_foldl_absorbFollowing (h : Joins s t) (hs : s.IsFlat) {ids : List NodeId}
    (hids : ids ⊆ s.groups root) :
    Joins t (ids.foldl absorbFollowing t) ∧ ∀ id ∈ ids, (ids.foldl absorbFollowing t).Apart id := by
  induction ids generalizing t with
  | nil => exact ⟨.refl h.isFlat, by simp⟩
  | cons id ids ih =>
    have hid := hids List.mem_cons_self
    have hnext := (h.isFlat.joins_absorbFollowing id).1
    obtain ⟨hjoins, hapart⟩ := ih (h.trans hnext) fun i hi => hids (List.mem_cons_of_mem _ hi)
    rw [List.foldl_cons]
    refine ⟨hnext.trans hjoins, fun i hi => ?_⟩
    rcases List.mem_cons.1 hi with rfl | hi
    · exact hjoins.apart (h.apart_absorbFollowing hs hid)
    · exact hapart i hi

end

/-- Joining groups with equal bodies loses nothing and says nothing twice: every parent keeps the
selector parts of its ordinary groups with their bodies, and afterwards no two of its ordinary
groups have the same body. All but the groups that have left the tree is as it was. Assumed are
headers that are not empty and that no group stands in an ordinary group, whose body could change
while it is compared. -/
theorem mergeGroups_joins {s : Sheet} (hs : s.IsFlat) :
    Joins s s.mergeGroups ∧ ∀ parent, parent = root ∨ parent ∈ s.groups root →
      (((s.mergeGroups.children parent).filter s.mergeGroups.isMergeable).map
        s.mergeGroups.bodyText).Nodup := by
  obtain ⟨hjoins, hapart⟩ := (Joins.refl hs).joins_foldl_absorbFollowing hs
    (fun _ hid => hid : s.groups root ⊆ s.groups root)
  refine ⟨hjoins, fun parent hparent => ?_⟩
  rw [List.Nodup, List.pairwise_map, List.pairwise_iff_forall_sublist]
  intro id other hbehind
  obtain ⟨hchild, hmergeable⟩ := List.mem_filter.1 (hbehind.subset List.mem_cons_self)
  refine hapart id ?_ parent other hbehind
  have hup := hjoins.parent_eq (hjoins.isFlat.isForest.parent?_of_mem_children hchild)
  refine List.mem_filter.2 ⟨hs.isForest.mem_descendants_iff.2 ?_, ?_⟩
  · rcases hparent with rfl | hparent
    · exact .single hup
    · exact .head hup (hs.isForest.below_of_mem_groups hparent)
  · rw [kind?_of_isMergeable ((hjoins.isMergeable_eq id).symm.trans hmergeable)]
    rfl

/-- Whether a forest is flat can be found out by looking at all its slots. That makes the assumption
decidable for a sheet that is given. -/
theorem isFlat_of_forall_lt {s : Sheet} (hs : s.IsForest)
    (h : ∀ id < s.size, s.selector? id ≠ some "" ∧
      (s.isMergeable id = true → ∀ child ∈ s.children id, s.group? child = none)) : s.IsFlat := by
  have hlt {id : NodeId} (hid : (s.group? id).isSome) : id < s.size := by
    obtain ⟨g, hg⟩ := Option.isSome_iff_exists.1 hid
    exact lt_size_of_node? (group?_eq_some_iff.1 hg)
  refine ⟨hs, fun id hselector => ?_, fun id hid => ?_⟩
  · obtain ⟨g, hg, -⟩ := Option.bind_eq_some_iff.1 hselector
    exact (h id (hlt (by rw [hg]; rfl))).1 hselector
  · exact (h id (hlt (isSome_group?_of_isMergeable hid))).2 hid

/-- Groups with one body, beside each other and in a block. -/
def twinsText : String :=
  "a\x7bx:y\x7db\x7bz:w\x7dc,d\x7bx:y\x7d@media p\x7be\x7bx:y\x7df\x7bx:y\x7d\x7d"

theorem mergeGroups_joins_twinsText :
    let s := parse true twinsText
    (s.IsFlat ∧ s.mergeGroups.selector? 1 = some "a,c,d" ∧ s.mergeGroups.parent? 5 = none) ∧
      Joins s s.mergeGroups ∧ ∀ parent, parent = root ∨ parent ∈ s.groups root →
        (((s.mergeGroups.children parent).filter s.mergeGroups.isMergeable).map
          s.mergeGroups.bodyText).Nodup := by
  intro s
  have hs : s.IsFlat := isFlat_of_forall_lt (isForest_parse true twinsText) (by decide +kernel)
  exact ⟨⟨hs, by decide +kernel, by decide +kernel⟩, mergeGroups_joins hs⟩

end Sheetsmith.Sheet
