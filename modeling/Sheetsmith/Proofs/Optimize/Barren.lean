import Sheetsmith.Proofs.Optimize.Rules
import Sheetsmith.Proofs.Sheet.Walking

namespace Sheetsmith.Sheet

/-- A group with nothing but groups below it. -/
def isBarren (s : Sheet) (id : NodeId) : Bool :=
  s.kind? id == some .group && (s.descendants id).all fun i => s.kind? i == some .group

/-- The groups of the tree, without its root, that have nothing but groups below them. -/
def barrenGroups (s : Sheet) : List NodeId :=
  (s.groups root).filter s.isBarren

section

variable {s t : Sheet} {id i group : NodeId}

theorem kind?_eq_group : (s.kind? id == some .group) = (s.group? id).isSome := by
  unfold kind? group?
  cases s.node? id with
  | none => rfl
  | some node => cases node <;> rfl

/-- Taking a node out changes the content of none, children apart. -/
theorem alone_remove (s : Sheet) (id i : NodeId) :
    ((s.remove id).node? i).map Node.alone = (s.node? i).map Node.alone := by
  rcases node?_remove_eq_or s id i with heq | ⟨g, children, hold, hnew⟩
  · rw [heq]
  · rw [hold, hnew]
    rfl

/-- In a listing each node is one of the given ones or stands behind its parent. -/
theorem Spans.mem_or_exists_parent {ids all front back : List NodeId} (h : Spans s ids all)
    (hsplit : all = front ++ id :: back) : id ∈ ids ∨ ∃ parent ∈ front, id ∈ s.children parent := by
  induction h generalizing front back with
  | nil => simp at hsplit
  | @cons first ids below rest hbelow hrest ihbelow ihrest =>
    cases front with
    | nil =>
      cases hsplit
      exact .inl (by simp)
    | cons first' front =>
      rw [List.cons_append, List.cons_append, List.cons.injEq] at hsplit
      obtain ⟨rfl, hsplit⟩ := hsplit
      rcases List.append_eq_append_iff.1 hsplit with ⟨more, rfl, hmore⟩ | ⟨more, hmore, hback⟩
      · rcases ihrest hmore with hid | ⟨parent, hparent, hid⟩
        · exact .inl (by simp [hid])
        · exact .inr ⟨parent, by simp [hparent], hid⟩
      · cases more with
        | nil =>
          rcases ihrest (show rest = [] ++ id :: back from hback.symm) with hid | ⟨parent, hparent, -⟩
          · exact .inl (by simp [hid])
          · cases hparent
        | cons _ more =>
          rw [List.cons_append, List.cons.injEq] at hback
          obtain ⟨rfl, -⟩ := hback
          rcases ihbelow hmore with hid | ⟨parent, hparent, hid⟩
          · exact .inr ⟨first, by simp, hid⟩
          · exact .inr ⟨parent, by simp [hparent], hid⟩

/-- The groups are listed behind the groups that they belong to. Going through the listing backwards
thus meets every group before the one around it. -/
theorem IsForest.parent?_of_groups_eq (hs : s.IsForest) {front back : List NodeId}
    (h : s.groups root = front ++ id :: back) {parent : NodeId} (hparent : s.parent? id = some parent) :
    parent = root ∨ parent ∈ front := by
  unfold groups descendantsOfKind at h
  obtain ⟨front', rest, hdescendants, rfl, hrest⟩ := List.filter_eq_append_iff.1 h
  obtain ⟨skipped, back', rfl, hskipped, -, -⟩ := List.filter_eq_cons_iff.1 hrest
  rw [← List.append_assoc] at hdescendants
  rcases (hs.spans_descendants root).mem_or_exists_parent hdescendants with hid | ⟨up, hup, hid⟩
  · rw [hs.parent?_of_mem_children hid] at hparent
    exact .inl (Option.some.inj hparent).symm
  · rw [hs.parent?_of_mem_children hid] at hparent
    obtain rfl := Option.some.inj hparent
    obtain ⟨g, hg⟩ := exists_group_of_mem_children hid
    have hkind : s.kind? up = some .group := by
      rw [kind?, group?_eq_some_iff.1 hg]
      rfl
    rcases List.mem_append.1 hup with hup | hup
    · exact .inr (List.mem_filter.2 ⟨hup, by simpa using hkind⟩)
    · exact absurd (by simpa using hkind) (hskipped up hup)

/-- A listing without some of the nodes, where those below a missing node are missing too. Which
nodes are kept is left open, as long as no child of a missing node is. -/
theorem Spans.filter {ids all : List NodeId} (h : Spans s ids all) {kept : NodeId → Bool}
    (hchildren : ∀ id, t.children id = (s.children id).filter kept)
    (hbelow : ∀ id, kept id = false → ∀ child ∈ s.children id, kept child = false) :
    Spans t (ids.filter kept) (all.filter kept) := by
  induction h with
  | nil => exact .nil
  | @cons id ids below rest hinner hrest ihinner ihrest =>
    rw [List.cons_append, List.filter_cons, List.filter_cons, List.filter_append]
    cases hkept : kept id with
    | true =>
      rw [← hchildren id] at ihinner
      exact .cons ihinner ihrest
    | false =>
      have hnone : below.filter kept = [] := by
        refine List.filter_eq_nil_iff.2 fun i hi => ?_
        rw [hinner.forall_mem (hbelow id hkept) hbelow i hi]
        exact Bool.false_ne_true
      rw [hnone]
      exact ihrest

namespace IsForest

variable (hs : s.IsForest)
include hs

/-- A group has nothing but groups below it when all its children are such groups. -/
theorem isBarren_eq (id : NodeId) :
    s.isBarren id = (s.kind? id == some .group && (s.children id).all s.isBarren) := by
  unfold isBarren
  rw [hs.listsBelow_descendants id, List.all_flatMap]
  rfl

/-- The barren groups are those of the tree, the root apart. -/
theorem mem_barrenGroups_iff : i ∈ s.barrenGroups ↔ s.Below i root ∧ s.isBarren i = true := by
  rw [barrenGroups, List.mem_filter, and_congr_left_iff]
  intro hbarren
  rw [isBarren, Bool.and_eq_true] at hbarren
  rw [groups, descendantsOfKind, List.mem_filter, hs.mem_descendants_iff, and_iff_left hbarren.1]

/-- The children of a group of the tree that have nothing but groups below them are listed behind
it, so they are visited before it. -/
theorem mem_of_isBarren {front back : List NodeId} (hsplit : s.groups root = front ++ group :: back)
    (hchild : i ∈ s.children group) (hbarren : s.isBarren i = true) :
    i ∈ back.filter s.isBarren := by
  have hnodup : (s.groups root).Nodup := (hs.nodup_of_spans (hs.spans_descendants root)).filter _
  have hparent := hs.parent?_of_mem_children hchild
  have hgroup : s.Below group root := hs.below_of_mem_groups (by rw [hsplit]; simp)
  have hmem : i ∈ s.groups root := by
    have hbelow : s.Below i root := .head hparent hgroup
    exact (List.mem_filter.1 (hs.mem_barrenGroups_iff.2 ⟨hbelow, hbarren⟩)).1
  refine List.mem_filter.2 ⟨?_, hbarren⟩
  rw [hsplit] at hmem hnodup
  obtain ⟨-, hrest, hdisjoint⟩ := List.nodup_append'.1 hnodup
  rcases List.mem_append.1 hmem with hfront | hback
  · -- In front of the group there is no place for its child.
    obtain ⟨outer, inner, rfl⟩ := List.append_of_mem hfront
    rw [List.append_assoc, List.cons_append] at hsplit
    rcases hs.parent?_of_groups_eq hsplit hparent with rfl | houter
    · exact absurd hgroup (hs.not_below_self _)
    · exact absurd List.mem_cons_self (hdisjoint (List.mem_append_left _ houter))
  · refine (List.mem_cons.1 hback).resolve_left ?_
    rintro rfl
    exact hs.not_below_self _ (.single hparent)

/-- The pass over the groups from the last one on takes out those with nothing but groups below
them: when a group is visited, the last of its content is gone if it was such groups only. The
induction is on the groups that are already visited. -/
theorem foldl_pruneGroup_eq {front back : List NodeId} (hsplit : s.groups root = front ++ back) :
    back.reverse.foldl pruneGroup s = s.removeAll (back.filter s.isBarren).reverse := by
  induction back generalizing front with
  | nil => rfl
  | cons group back ih =>
    have hih := ih (show s.groups root = front ++ [group] ++ back by simp [hsplit])
    rw [List.reverse_cons, List.foldl_append, hih, List.foldl_cons, List.foldl_nil, pruneGroup,
      (hs.trims_removeAll root _).children, List.filter_cons]
    have hkind : (s.kind? group == some .group) = true :=
      (List.mem_filter.1 (show group ∈ s.groups root by rw [hsplit]; simp)).2
    have hempty : ((s.children group).filter (· ∉ (back.filter s.isBarren).reverse)).isEmpty =
        s.isBarren group := by
      rw [hs.isBarren_eq group, hkind, Bool.true_and, Bool.eq_iff_iff, List.isEmpty_iff,
        List.filter_eq_nil_iff, List.all_eq_true]
      refine forall₂_congr fun i hi => ?_
      simp only [List.mem_reverse, decide_eq_true_eq, not_not]
      exact ⟨fun hmem => (List.mem_filter.1 hmem).2, hs.mem_of_isBarren hsplit hi⟩
    rw [hempty]
    cases s.isBarren group with
    | false => rfl
    | true => rw [if_pos rfl, if_pos rfl, List.reverse_cons, removeAll, removeAll, List.foldl_append,
        List.foldl_cons, List.foldl_nil]

/-- The pass takes out the barren groups of the sheet as it was at its start, and no others. -/
theorem pruneGroups_eq : s.pruneGroups = s.removeAll s.barrenGroups.reverse :=
  hs.foldl_pruneGroup_eq (List.nil_append _).symm

end IsForest

end

/-- The groups of the tree with nothing but groups below them are out of it, each one by itself, and
nothing else has changed: what is left in the tree is listed in its order. -/
structure Prunes (s t : Sheet) : Prop where
  isForest : t.IsForest
  size_eq : t.size = s.size
  alone_eq : ∀ id, (t.node? id).map Node.alone = (s.node? id).map Node.alone
  parent_eq : ∀ id, t.parent? id = if id ∈ s.barrenGroups then none else s.parent? id
  children_eq : ∀ id, t.children id = (s.children id).filter (· ∉ s.barrenGroups)
  attached_iff : ∀ id, t.isAttached id = true ↔ s.isAttached id = true ∧ id ∉ s.barrenGroups
  descendants_eq : t.descendants root = (s.descendants root).filter (!s.isBarren ·)

/-- Of any forest the pass takes the barren groups out of the tree, each by itself, and changes
nothing else. -/
theorem IsForest.prunes_pruneGroups {s : Sheet} (hs : s.IsForest) : s.Prunes s.pruneGroups := by
  rw [hs.pruneGroups_eq]
  have htrims := hs.trims_removeAll root s.barrenGroups.reverse
  have hremoved := s.barrenGroups.reverse.foldlRecOn (motive := fun t : Sheet => t.IsForest ∧
      t.size = s.size ∧ ∀ i, (t.node? i).map Node.alone = (s.node? i).map Node.alone) Sheet.remove
    ⟨hs, rfl, fun _ => rfl⟩ fun t ⟨ht, hsize, halone⟩ id _ =>
      ⟨ht.remove id, by rw [size_remove, hsize], fun i => by rw [alone_remove, halone]⟩
  obtain ⟨hforest, hsize, halone⟩ := hremoved
  change (s.removeAll s.barrenGroups.reverse).IsForest at hforest
  have hchildren (id : NodeId) : (s.removeAll s.barrenGroups.reverse).children id =
      (s.children id).filter (· ∉ s.barrenGroups) := by
    rw [htrims.children]
    simp
  have hdescendants : (s.removeAll s.barrenGroups.reverse).descendants root =
      (s.descendants root).filter (· ∉ s.barrenGroups) := by
    refine hforest.eq_descendants_of_spans ?_
    rw [hchildren]
    refine (hs.spans_descendants root).filter hchildren fun id hid child hchild => ?_
    rw [decide_eq_false_iff_not, not_not, hs.mem_barrenGroups_iff] at hid ⊢
    obtain ⟨hbelow, hbarren⟩ := hid
    rw [hs.isBarren_eq, Bool.and_eq_true, List.all_eq_true] at hbarren
    exact ⟨.head (hs.parent?_of_mem_children hchild) hbelow, hbarren.2 child hchild⟩
  refine ⟨hforest, hsize, halone, fun id => ?_, hchildren, fun id => ?_, ?_⟩
  · rw [htrims.parent]
    simp
  · rw [hforest.isAttached_iff, hs.isAttached_iff, hdescendants, List.mem_filter,
      decide_eq_true_eq]
    constructor
    · rintro (rfl | hid)
      · refine ⟨.inl rfl, fun hmem => ?_⟩
        exact hs.not_below_self _ (hs.mem_barrenGroups_iff.1 hmem).1
      · exact ⟨.inr hid.1, hid.2⟩
    · rintro ⟨rfl | hid, hkept⟩
      · exact .inl rfl
      · exact .inr ⟨hid, hkept⟩
  · rw [hdescendants]
    refine List.filter_congr fun id hid => ?_
    have hbelow := hs.mem_descendants_iff.1 hid
    have hmem : id ∈ s.barrenGroups ↔ s.isBarren id = true :=
      hs.mem_barrenGroups_iff.trans (and_iff_right hbelow)
    simp [hmem]

namespace Prunes

variable {s t : Sheet} (h : s.Prunes t) {id parent : NodeId}
include h

/-- What has a parent after the pass had the same one before. -/
theorem parent?_of (hparent : t.parent? id = some parent) : s.parent? id = some parent := by
  rw [h.parent_eq] at hparent
  split at hparent
  · cases hparent
  · exact hparent

theorem kind?_eq : t.kind? id = s.kind? id := by
  have hkind (s : Sheet) : s.kind? id = ((s.node? id).map Node.alone).map Node.kind := by
    unfold kind?
    rw [Option.map_map]
    exact Option.map_congr fun node _ => by cases node <;> rfl
  rw [hkind, h.alone_eq, ← hkind]

end Prunes

end Sheetsmith.Sheet
