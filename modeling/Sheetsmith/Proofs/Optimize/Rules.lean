import Sheetsmith.Proofs.Optimize.Shrinking

namespace Sheetsmith.Sheet

/-- The declarations of a group with their numbers, in order. -/
def rule (s : Sheet) (group : NodeId) : List (NodeId × Declaration) :=
  (s.children group).filterMap fun id => (s.declaration? id).map (id, ·)

/-- The declarations of a group, in order. -/
def declarationsIn (s : Sheet) (group : NodeId) : List Declaration :=
  (s.children group).filterMap s.declaration?

variable {s t u : Sheet} {id i group : NodeId} {d : Declaration}

/-- A rule without its numbers are the declarations of the group. -/
theorem map_snd_rule (s : Sheet) (group : NodeId) :
    (s.rule group).map (·.2) = s.declarationsIn group := by
  rw [rule, declarationsIn, List.map_filterMap]
  refine List.filterMap_congr fun id _ => ?_
  cases s.declaration? id <;> rfl

theorem mem_rule_iff :
    (id, d) ∈ s.rule group ↔ id ∈ s.children group ∧ s.declaration? id = some d := by
  rw [rule, List.mem_filterMap]
  constructor
  · rintro ⟨j, hj, heq⟩
    obtain ⟨e, he, hpair⟩ := Option.map_eq_some_iff.1 heq
    obtain ⟨rfl, rfl⟩ := Prod.mk.inj hpair
    exact ⟨hj, he⟩
  · rintro ⟨hid, hd⟩
    exact ⟨id, hid, by rw [hd]; rfl⟩

/-- The numbers of a rule are those children of the group that are declarations. -/
theorem map_fst_rule (s : Sheet) (group : NodeId) :
    (s.rule group).map (·.1) = (s.children group).filter fun id => (s.declaration? id).isSome := by
  rw [rule, List.map_filterMap, ← List.filterMap_eq_filter]
  refine List.filterMap_congr fun id _ => ?_
  cases hd : s.declaration? id <;> simp [Option.guard, hd]

theorem IsForest.nodup_rule (hs : s.IsForest) (group : NodeId) :
    ((s.rule group).map (·.1)).Nodup := by
  rw [map_fst_rule]
  exact (hs.nodup_children group).filter _

/-- A rule depends on the children of its group and what they declare. Links to parents are not
asked for. -/
theorem rule_congr (hchildren : t.children group = s.children group)
    (hdeclaration : ∀ i ∈ s.children group, t.declaration? i = s.declaration? i) :
    t.rule group = s.rule group := by
  rw [rule, rule, hchildren]
  exact List.filterMap_congr fun i hi => by rw [hdeclaration i hi]

/-- The first declaration of a property beside a node is the first one in the rule. So there is none
exactly where the rule has none of that name. -/
theorem firstNamed?_eq (hparent : s.parent? id = some group) (property : String) :
    s.firstNamed? id property =
      ((s.rule group).find? fun p => p.2.name == property).map (·.1) := by
  rw [firstNamed?, family, hparent, rule, List.find?_filterMap]
  dsimp only
  have hfind : ((s.children group).find? fun i =>
        ((s.declaration? i).map (i, ·)).any fun p => p.2.name == property) =
      (s.children group).find? fun i => (s.declaration? i).any (·.name == property) := by
    congr 1
    funext i
    cases s.declaration? i <;> rfl
  rw [hfind]
  cases hfound : (s.children group).find? fun i => (s.declaration? i).any (·.name == property) with
  | none => rfl
  | some i =>
    have hnamed := List.find?_some hfound
    obtain ⟨d, hd, -⟩ := (Option.any_eq_true _ _).1 hnamed
    rw [Option.bind_some, hd]
    rfl

/-- A change of nothing but one declaration, with some nodes taken out. -/
structure Trims (s t : Sheet) (id : NodeId) (gone : List NodeId) : Prop where
  parent : ∀ i, t.parent? i = if i ∈ gone then none else s.parent? i
  children : ∀ group, t.children group = (s.children group).filter (· ∉ gone)
  declaration : ∀ i, i ≠ id → t.declaration? i = s.declaration? i

theorem Trims.refl (s : Sheet) (id : NodeId) : Trims s s id [] :=
  ⟨by simp, by simp, fun _ _ => rfl⟩

/-- What two changes take out is taken out by both in a row. -/
theorem Trims.trans {gone gone' : List NodeId} (h : Trims s t id gone) (h' : Trims t u id gone') :
    Trims s u id (gone ++ gone') := by
  refine ⟨fun i => ?_, fun group => ?_, fun i hi => (h'.declaration i hi).trans (h.declaration i hi)⟩
  · rw [h'.parent, h.parent]
    by_cases hi : i ∈ gone <;> by_cases hi' : i ∈ gone' <;> simp [hi, hi']
  · rw [h'.children, h.children, List.filter_filter]
    refine List.filter_congr fun i _ => ?_
    simp only [List.mem_append, not_or, Bool.decide_and]
    exact Bool.and_comm _ _

theorem Trims.modifyDeclaration {gone : List NodeId} (h : Trims s t id gone)
    (f : Declaration → Declaration) : Trims s (t.modifyDeclaration id f) id gone :=
  ⟨fun i => by rw [parent?_modifyDeclaration, h.parent],
    fun group => by rw [children_modifyDeclaration, h.children],
    fun i hi => by rw [declaration?_modifyDeclaration, if_neg hi, h.declaration i hi]⟩

theorem IsForest.trims_remove (hs : s.IsForest) (id gone : NodeId) :
    Trims s (s.remove gone) id [gone] := by
  refine ⟨fun i => ?_, fun group => ?_, fun i _ => declaration?_remove s gone i⟩
  · rw [parent?_remove]
    simp
  · -- What is not a child of the group is not missed there.
    have hother (h : s.parent? gone ≠ some group) :
        (s.children group).filter (· ∉ [gone]) = s.children group := by
      refine List.filter_eq_self.2 fun i hi => ?_
      have hne : i ≠ gone := by
        rintro rfl
        exact h (hs.parent?_of_mem_children hi)
      simpa using hne
    cases hparent : s.parent? gone with
    | none => rw [hother (by simp [hparent]), Sheet.remove, hparent]
    | some parent =>
      rw [children_remove hparent]
      split
      · next heq =>
        refine List.filter_congr fun i _ => ?_
        by_cases hi : i = gone <;> simp [hi]
      · next hne => rw [hother (by simpa [hparent] using fun h => hne h.symm)]

/-- Taking nodes out changes no declaration, whichever one is looked at. -/
theorem IsForest.trims_removeAll (hs : s.IsForest) (id : NodeId) (gone : List NodeId) :
    Trims s (s.removeAll gone) id gone := by
  induction gone generalizing s with
  | nil => exact .refl s id
  | cons i gone ih => exact (hs.trims_remove id i).trans (ih (hs.remove i))

theorem IsForest.parent?_of_mem_family (hs : s.IsForest) (h : i ∈ s.family id) :
    s.parent? i = s.parent? id := by
  unfold family at h
  cases hparent : s.parent? id with
  | none =>
    rw [hparent] at h
    cases h
  | some parent =>
    rw [hparent] at h
    exact hs.parent?_of_mem_children h

namespace Trims

variable {gone : List NodeId} (h : Trims s t id gone)
include h

/-- The rule that a node belongs to has its new declaration and misses what is gone. Other rules
miss what is gone. -/
theorem rule_update {d' : Declaration} (hd : s.declaration? id = some d) (hgone : id ∉ gone)
    (hd' : t.declaration? id = some d') (group : NodeId) :
    t.rule group = ((s.rule group).filter (·.1 ∉ gone)).map
      fun p => if p.1 = id then (id, d') else p := by
  rw [rule, h.children, rule, List.filterMap_filter, List.filter_filterMap, List.map_filterMap]
  refine List.filterMap_congr fun i hi => ?_
  by_cases hi : i = id
  · subst hi
    simp [hgone, hd, hd']
  · by_cases hmem : i ∈ gone
    · cases s.declaration? i <;> simp [hmem]
    · rw [h.declaration i hi]
      cases s.declaration? i <;> simp [hmem, hi]

/-- The rule of the visited declaration, cut at its place. The nodes that are gone may be in any
rule, but the visited one is not among them. -/
theorem rule_eq {front back : List (NodeId × Declaration)} {d' : Declaration} (hs : s.IsForest)
    (hrule : s.rule group = front ++ (id, d) :: back) (hgone : id ∉ gone)
    (hd' : t.declaration? id = some d') :
    t.rule group = front.filter (·.1 ∉ gone) ++ (id, d') :: back.filter (·.1 ∉ gone) := by
  have hd : s.declaration? id = some d :=
    (mem_rule_iff.1 (by rw [hrule]; simp : (id, d) ∈ s.rule group)).2
  have hupdate := h.rule_update hd hgone hd' group
  have hnodup := hs.nodup_rule group
  rw [hrule] at hupdate hnodup
  have hkeep {ps : List (NodeId × Declaration)} (hps : id ∉ ps.map (·.1)) :
      (ps.filter (·.1 ∉ gone)).map (fun p => if p.1 = id then (id, d') else p) =
        ps.filter (·.1 ∉ gone) := by
    refine (List.map_congr_left fun p hp => ?_).trans (List.map_id _)
    refine if_neg ?_
    rintro rfl
    exact hps (List.mem_map_of_mem (List.mem_filter.1 hp).1)
  rw [List.map_append, List.map_cons, List.nodup_append] at hnodup
  obtain ⟨-, hback, hapart⟩ := hnodup
  have hfront : id ∉ front.map (·.1) := fun hmem => hapart id hmem id (by simp) rfl
  rw [hupdate, List.filter_append, List.filter_cons_of_pos (by simpa using hgone), List.map_append,
    List.map_cons, hkeep hfront, hkeep (List.nodup_cons.1 hback).1, if_pos rfl]

/-- The other rules stay, since what is gone was beside the node. -/
theorem rule_of_ne (hs : s.IsForest) (hfamily : ∀ i ∈ gone, i ∈ s.family id)
    (hparent : s.parent? id ≠ some group) : t.rule group = s.rule group := by
  refine rule_congr ?_ fun i hi => h.declaration i ?_
  · rw [h.children]
    refine List.filter_eq_self.2 fun i hi => ?_
    simp only [decide_eq_true_eq]
    intro hmem
    rw [← hs.parent?_of_mem_family (hfamily i hmem)] at hparent
    exact hparent (hs.parent?_of_mem_children hi)
  · rintro rfl
    exact hparent (hs.parent?_of_mem_children hi)

/-- The other groups keep their members. All that a visit takes out stands beside the visited node.
-/
theorem parent?_beq_of_ne (hs : s.IsForest) (hfamily : ∀ i ∈ gone, i ∈ s.family id)
    (hparent : s.parent? id ≠ some group) (i : NodeId) :
    (t.parent? i == some group) = (s.parent? i == some group) := by
  rw [h.parent]
  split
  · next hi =>
    rw [hs.parent?_of_mem_family (hfamily i hi)]
    simpa using hparent
  · rfl

/-- What is left of the declarations of a group that are still to come. -/
theorem map_fst_filter {rest : List (NodeId × Declaration)} {todo : List NodeId}
    (hids : rest.map (·.1) = todo.filter fun i => s.parent? i == some group) :
    (rest.filter (·.1 ∉ gone)).map (·.1) = todo.filter fun i => t.parent? i == some group := by
  have hmap : (rest.filter (·.1 ∉ gone)).map (·.1) = (rest.map (·.1)).filter (· ∉ gone) := by
    rw [List.filter_map]
    rfl
  rw [hmap, hids, List.filter_filter]
  refine List.filter_congr fun i _ => ?_
  rw [h.parent]
  by_cases hi : i ∈ gone <;> simp [hi]

/-- A group stays where it is, since only declarations are taken out. -/
theorem below (hs : s.IsForest) (hgone : ∀ i ∈ gone, (s.declaration? i).isSome) {top : NodeId}
    (hi : s.declaration? i = none) (hbelow : s.Below i top) : t.Below i top := by
  have hstays {i : NodeId} (hi : s.declaration? i = none) : t.parent? i = s.parent? i := by
    rw [h.parent, if_neg]
    intro hmem
    have := hgone i hmem
    simp [hi] at this
  induction hbelow using Relation.TransGen.head_induction_on with
  | single hparent => exact .single (by rw [hstays hi, hparent])
  | @head i up hparent _ ih =>
    refine .head (by rw [hstays hi, hparent]) (ih ?_)
    obtain ⟨g, hg⟩ := hs.exists_group_of_parent? hparent
    rw [declaration?, group?_eq_some_iff.1 hg]

end Trims

/-- A visit changes its own declaration and takes out declarations beside it. The number may be that
of no declaration, and then nothing changes. -/
theorem IsForest.trims_optimizeDeclaration {read : Color.Reader} (hs : s.IsForest)
    (h : s.optimizeDeclaration read id = .ok t) :
    t.IsForest ∧ ∃ gone, Trims s t id gone ∧
      ∀ i ∈ gone, i ∈ s.family id ∧ (s.declaration? i).isSome := by
  rcases optimizeDeclaration_eq_ok h with ⟨-, rfl⟩ | ⟨d, value, -, -, hvisit⟩
  · exact ⟨hs, [], .refl _ id, by simp⟩
  · have hworded := (Trims.refl s id).modifyDeclaration fun d => { d with value }
    have hforest := hs.modifyDeclaration id fun d => { d with value }
    rcases hvisit with ⟨-, rfl⟩ | ⟨name, joined, merged, value', hmerge, -, rfl⟩
    · exact ⟨hforest.modifyDeclaration id _, [], hworded.modifyDeclaration _, by simp⟩
    · obtain ⟨shorthand, members, hcompletes, -, -, rfl⟩ := mergeShorthand?_eq_some hmerge
      have htrims := hworded.trans (hforest.trims_removeAll id (members.filter (· != id)))
      have hmerged := List.foldlRecOn (motive := IsForest) (members.filter (· != id)) Sheet.remove
        hforest fun _ ht i _ => ht.remove i
      refine ⟨(hmerged.modifyDeclaration id _).modifyDeclaration id _, _,
        (htrims.modifyDeclaration _).modifyDeclaration _, ?_⟩
      intro i hi
      rw [List.nil_append] at hi
      obtain ⟨hmember, hne⟩ := List.mem_filter.1 hi
      obtain ⟨property, -, hfirst⟩ := hcompletes.exists_property hmember
      obtain ⟨hfamily, e, he, -⟩ := firstNamed?_eq_some hfirst
      rw [declaration?_modifyDeclaration, if_neg (by simpa using hne)] at he
      refine ⟨?_, by rw [he]; rfl⟩
      unfold family at hfamily ⊢
      simpa using hfamily

/-- A visit makes no declarations. What is no declaration before the visit is none after it, also in
a free slot. -/
theorem declaration?_optimizeDeclaration_eq_none {read : Color.Reader}
    (h : s.optimizeDeclaration read id = .ok t) (hi : s.declaration? i = none) :
    t.declaration? i = none := by
  rcases optimizeDeclaration_eq_ok h with ⟨-, rfl⟩ | ⟨d, value, hd, -, hvisit⟩
  · exact hi
  · have hne : i ≠ id := by
      rintro rfl
      rw [hi] at hd
      cases hd
    rcases hvisit with ⟨-, rfl⟩ | ⟨name, joined, merged, value', hmerge, -, rfl⟩
    · rw [declaration?_modifyDeclaration, if_neg hne, declaration?_modifyDeclaration, if_neg hne, hi]
    · obtain ⟨shorthand, members, -, -, -, rfl⟩ := mergeShorthand?_eq_some hmerge
      rw [declaration?_modifyDeclaration, if_neg hne, declaration?_modifyDeclaration, if_neg hne,
        declaration?_removeAll, declaration?_modifyDeclaration, if_neg hne, hi]

theorem Spans.sublist {ids all : List NodeId} (h : Spans s ids all) : ids.Sublist all := by
  induction h with
  | nil => exact List.Sublist.refl _
  | cons _ _ _ ihrest => exact (ihrest.trans (List.sublist_append_right _ _)).cons_cons _

/-- A listing has the children of its nodes in their order. -/
theorem Spans.children_sublist {ids all : List NodeId} (h : Spans s ids all) (hid : id ∈ all) :
    (s.children id).Sublist all := by
  induction h with
  | nil => cases hid
  | @cons first ids below rest hbelow hrest ihbelow ihrest =>
    rcases List.mem_append.1 hid with hid | hid
    · have hbelow' : (s.children id).Sublist below := by
        rcases List.mem_cons.1 hid with rfl | hid
        · exact hbelow.sublist
        · exact ihbelow hid
      exact (hbelow'.trans (List.sublist_cons_self _ _)).trans (List.sublist_append_left _ _)
    · exact (ihrest hid).trans (List.sublist_append_right _ _)

/-- Of all nodes of the tree, those of one group are listed as its children are. -/
theorem IsForest.filter_descendants (hs : s.IsForest) (hgroup : group = root ∨ s.Below group root) :
    (s.descendants root).filter (fun i => s.parent? i == some group) = s.children group := by
  have hspans := hs.spans_descendants root
  have hsublist : (s.children group).Sublist (s.descendants root) := by
    rcases hgroup with rfl | hgroup
    · exact hspans.sublist
    · exact hspans.children_sublist (hs.mem_descendants_iff.2 hgroup)
  have hself : (s.children group).filter (fun i => s.parent? i == some group) = s.children group :=
    List.filter_eq_self.2 fun i hi => by simpa using hs.parent?_of_mem_children hi
  have hperm : (s.descendants root).filter (fun i => s.parent? i == some group) ⊆ s.children group := by
    intro i hi
    exact hs.mem_children_of_parent? (by simpa using (List.mem_filter.1 hi).2)
  have hle := (((hs.nodup_of_spans hspans).filter _).subperm hperm).length_le
  have hsub := hsublist.filter (fun i => s.parent? i == some group)
  rw [hself] at hsub
  exact (hsub.eq_of_length_le hle).symm

theorem kind?_eq_declaration : (s.kind? id == some .declaration) = (s.declaration? id).isSome := by
  unfold kind? declaration?
  cases s.node? id with
  | none => rfl
  | some node => cases node <;> rfl

/-- The declarations of a group are visited in their order, whatever is visited in between. This
holds of every group of the tree and of the root itself. -/
theorem IsForest.filter_declarations (hs : s.IsForest) (hgroup : group = root ∨ s.Below group root) :
    (s.declarations root).filter (fun i => s.parent? i == some group) =
      (s.rule group).map (·.1) := by
  rw [declarations, descendantsOfKind, List.filter_comm, hs.filter_descendants hgroup, map_fst_rule]
  exact List.filter_congr fun i _ => kind?_eq_declaration

theorem modifyDeclaration_eq_self {f : Declaration → Declaration} (h : s.declaration? id = some d)
    (hf : f d = d) : s.modifyDeclaration id f = s := by
  rw [modifyDeclaration_eq]
  exact modifyNode_eq_self (declaration?_eq_some_iff.1 h) (congrArg Node.declaration hf)

/-- Where nothing is merged, the declaration is no member of a shorthand, or another member is
missing beside it. The values are not looked at. -/
theorem mergeShorthand?_eq_none (hd : s.declaration? id = some d)
    (h : s.mergeShorthand? id = none) :
    ∀ shorthand, Shorthand.ofMember? d.name = some shorthand →
      ∃ member ∈ shorthand.members, s.firstNamed? id member = none := by
  intro shorthand hshorthand
  by_contra hall
  push Not at hall
  have hmembers : ∃ members, s.members? id shorthand = some members := by
    unfold members?
    generalize shorthand.members = properties at hall
    induction properties with
    | nil => exact ⟨[], rfl⟩
    | cons property properties ih =>
      obtain ⟨member, hmember⟩ := Option.ne_none_iff_exists'.1 (hall property (by simp))
      obtain ⟨members, hmembers⟩ := ih fun p hp => hall p (by simp [hp])
      exact ⟨member :: members, by rw [List.mapM_cons, hmember, hmembers]; rfl⟩
  obtain ⟨members, hmembers⟩ := hmembers
  unfold mergeShorthand? at h
  simp [hd, hshorthand, hmembers] at h

theorem declaration?_of_mem_groups (h : id ∈ s.groups root) : s.declaration? id = none := by
  have hkind := (List.mem_filter.1 h).2
  unfold kind? at hkind
  unfold declaration?
  cases hnode : s.node? id with
  | none => rfl
  | some node => cases node <;> simp_all [Node.kind]

theorem IsForest.below_of_mem_groups (hs : s.IsForest) (h : id ∈ s.groups root) : s.Below id root :=
  hs.mem_descendants_iff.1 (List.mem_filter.1 h).1

/-- Taking out groups without content leaves all rules. -/
theorem IsForest.rule_pruneGroups (hs : s.IsForest) (group : NodeId) :
    s.pruneGroups.rule group = s.rule group := by
  have hfold := (s.groups root).reverse.foldlRecOn (motive := fun t : Sheet => t.IsForest ∧
      (∀ i, t.declaration? i = s.declaration? i) ∧ t.rule group = s.rule group) pruneGroup
    ⟨hs, fun _ => rfl, rfl⟩ ?_
  · exact hfold.2.2
  · rintro t ⟨ht, hdeclaration, hrule⟩ id hid
    unfold pruneGroup
    split
    · refine ⟨ht.remove id, fun i => by rw [declaration?_remove, hdeclaration], ?_⟩
      have hid' : t.declaration? id = none := by
        rw [hdeclaration, declaration?_of_mem_groups (List.mem_reverse.1 hid)]
      have hsame : (t.remove id).declaration? = t.declaration? :=
        funext fun i => declaration?_remove t id i
      rw [← hrule, rule, rule, (ht.trims_remove id id).children, hsame, List.filterMap_filter]
      refine List.filterMap_congr fun i _ => ?_
      by_cases hi : i = id
      · simp [hi, hid']
      · simp [hi]
    · exact ⟨ht, hdeclaration, hrule⟩

/-- Taking out groups without content leaves the declarations of all groups. -/
theorem IsForest.declarationsIn_pruneGroups (hs : s.IsForest) (group : NodeId) :
    s.pruneGroups.declarationsIn group = s.declarationsIn group := by
  rw [← map_snd_rule, hs.rule_pruneGroups, map_snd_rule]

end Sheetsmith.Sheet
