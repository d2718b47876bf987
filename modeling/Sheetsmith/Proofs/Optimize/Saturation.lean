import Sheetsmith.Proofs.Optimize.Labels
import Sheetsmith.Proofs.Optimize.Rounds
import Sheetsmith.Proofs.Optimize.Tidy

namespace Sheetsmith.Sheet

variable {s t : Sheet} {id group : NodeId} {d : Declaration} {read : Color.Reader}

/-- A visit of a declaration keeps its name, or it makes a round. In both cases the node stays a
declaration. -/
theorem IsForest.visit_label (hs : s.IsForest) (hd : s.declaration? id = some d)
    (h : s.optimizeDeclaration read id = .ok t) :
    ∃ d', t.declaration? id = some d' ∧ ((Trims s t id [] ∧ d'.name = d.name) ∨
      ∃ sh members, s.Completes id sh members ∧ Trims s t id (members.filter (· != id)) ∧
        d'.name = sh.name) := by
  rcases optimizeDeclaration_eq_ok h with ⟨hnone, -⟩ | ⟨e, value, he, -, hvisit⟩
  · rw [hd] at hnone
    cases hnone
  · rw [hd] at he
    cases he
    have hworded : (s.modifyDeclaration id fun d => { d with value }).declaration? id =
        some { d with value } := by
      rw [declaration?_modifyDeclaration, if_pos rfl, hd, Option.map_some]
    have htrims := (Trims.refl s id).modifyDeclaration fun d => { d with value }
    rcases hvisit with ⟨-, rfl⟩ | ⟨name, joined, merged, value', hmerge, -, rfl⟩
    · rw [declaration?_modifyDeclaration, if_pos rfl, hworded]
      exact ⟨_, rfl, .inl ⟨htrims.modifyDeclaration _, rfl⟩⟩
    · obtain ⟨sh, members, hcompletes, rfl, -, rfl⟩ := mergeShorthand?_eq_some hmerge
      have hforest := hs.modifyDeclaration id fun d => { d with value }
      rw [declaration?_modifyDeclaration, if_pos rfl, declaration?_modifyDeclaration, if_pos rfl,
        declaration?_removeAll, hworded]
      refine ⟨_, rfl, .inr ⟨sh, members, ⟨?_, ?_⟩, ?_, rfl⟩⟩
      · -- The members are sought by name, and the new value leaves the name as it is.
        obtain ⟨e, he, hof⟩ := hcompletes.own
        rw [hworded] at he
        cases he
        exact ⟨d, hd, hof⟩
      · refine hcompletes.first.imp fun property member hfirst => ?_
        rwa [firstNamed?_modifyDeclaration (f := fun d => { d with value }) fun _ => rfl] at hfirst
      · refine (Trims.modifyDeclaration ?_ _).modifyDeclaration _
        exact htrims.trans (hforest.trims_removeAll id _)

/-- The pass in the middle of a group: the declarations of the group that are still to come are the
last ones of its rule, and all members of a complete set are among them. -/
structure Underway (s : Sheet) (group : NodeId) (todo : List NodeId) : Prop where
  isForest : s.IsForest
  inTree : s.InTree group
  isGroup : s.declaration? group = none
  pends : s.Pends todo
  split : ∃ done rest, s.rule group = done ++ rest ∧
    rest.map (·.1) = todo.filter fun i => s.parent? i == some group

namespace Underway

variable {todo : List NodeId} (h : Underway s group (id :: todo))
include h

/-- The next declaration to be visited in the rule, and those behind it. Nothing is said of those in
front of it. -/
theorem exists_next (hparent : s.parent? id = some group) :
    ∃ done d rest, s.rule group = done ++ (id, d) :: rest ∧
      rest.map (·.1) = todo.filter fun i => s.parent? i == some group := by
  obtain ⟨done, rest, hrule, hids⟩ := h.split
  rw [List.filter_cons_of_pos (by simpa using hparent)] at hids
  obtain ⟨⟨i, d⟩, rest, rfl, rfl, hrest⟩ := List.map_eq_cons_iff.1 hids
  exact ⟨done, d, rest, hrule, hrest⟩

/-- In front of the next declaration no member of a complete set is left. They were visited, and
each visit merged what could be merged. -/
theorem not_mem_members {done rest : List (NodeId × Declaration)} {sh : Shorthand}
    (hrule : s.rule group = done ++ (id, d) :: rest)
    (hids : rest.map (·.1) = todo.filter fun i => s.parent? i == some group)
    (hsh : sh ∈ Shorthand.all) (hcomplete : s.IsComplete group sh) :
    ∀ p ∈ done, p.2.name ∉ sh.members := by
  intro p hp hname
  have hmem : p ∈ s.rule group := hrule ▸ List.mem_append_left _ hp
  have htodo := h.pends group h.inTree sh hsh hcomplete p hmem hname
  have hforest := h.isForest
  have hparent := hforest.parent?_of_mem_children (mem_rule_iff.1 hmem).1
  have hlater : p.1 ∈ ((id, d) :: rest).map (·.1) := by
    rw [List.map_cons, hids]
    refine (List.mem_cons.1 htodo).elim (fun heq => by simp [heq]) fun htodo => ?_
    exact List.mem_cons_of_mem _ (List.mem_filter.2 ⟨htodo, by simpa using hparent⟩)
  have hnodup := hforest.nodup_rule group
  rw [hrule, List.map_append, List.nodup_append] at hnodup
  exact hnodup.2.2 p.1 (List.mem_map_of_mem hp) p.1 hlater rfl

/-- Where the next visit leaves the declarations behind the visited one in their places, the pass is
underway after it as before. -/
theorem next (ht : s.optimizeDeclaration read id = .ok t)
    (hsplit : ∃ done rest, t.rule group = done ++ rest ∧
      rest.map (·.1) = todo.filter fun i => t.parent? i == some group) : Underway t group todo := by
  obtain ⟨hforest, gone, htrims, hgone⟩ := h.isForest.trims_optimizeDeclaration ht
  have hinTree : t.InTree group :=
    h.inTree.imp_right (htrims.below h.isForest (fun i hi => (hgone i hi).2) h.isGroup)
  exact ⟨hforest, hinTree, declaration?_optimizeDeclaration_eq_none ht h.isGroup,
    h.pends.visit h.isForest ht, hsplit⟩

/-- A visit in another rule leaves the names of this one. Whatever it merges there, no node of this
group goes. -/
theorem visit_other (hparent : s.parent? id ≠ some group)
    (ht : s.optimizeDeclaration read id = .ok t) :
    Underway t group todo ∧ t.labels group = s.labels group := by
  have hforest := h.isForest
  obtain ⟨-, gone, htrims, hgone⟩ := h.isForest.trims_optimizeDeclaration ht
  have hrule := htrims.rule_of_ne hforest (fun i hi => (hgone i hi).1) hparent
  refine ⟨h.next ht ?_, by rw [labels, hrule, labels]⟩
  obtain ⟨done, rest, hrest, hids⟩ := h.split
  refine ⟨done, rest, hrule.trans hrest, ?_⟩
  rw [hids, List.filter_cons_of_neg (by simpa using hparent)]
  exact List.filter_congr fun i _ =>
    (htrims.parent?_beq_of_ne hforest (fun i hi => (hgone i hi).1) hparent i).symm

variable {done rest : List (NodeId × Declaration)}
  (hrule : s.rule group = done ++ (id, d) :: rest)
  (hids : rest.map (·.1) = todo.filter fun i => s.parent? i == some group)
include hrule hids

/-- A visit of the rule that keeps the name of the declaration leaves all its names. Its value may
have become another one. -/
theorem visit_kept {d' : Declaration} (ht : s.optimizeDeclaration read id = .ok t)
    (htrims : Trims s t id []) (hd' : t.declaration? id = some d') (hname : d'.name = d.name) :
    Underway t group todo ∧ t.labels group = s.labels group := by
  have hrule' : t.rule group = done ++ (id, d') :: rest := by
    rw [htrims.rule_eq h.isForest hrule (by simp) hd']
    simp
  refine ⟨h.next ht ⟨done ++ [(id, d')], rest, by rw [hrule', List.append_assoc]; rfl, ?_⟩, ?_⟩
  · rw [hids]
    exact List.filter_congr fun i _ => by rw [htrims.parent]; simp
  · rw [labels, labels, hrule, hrule', List.map_append, List.map_append, List.map_cons,
      List.map_cons, hname]

/-- A visit of the rule that makes a round is one more of them. The names before the pass are `old`,
so the rounds of earlier visits count along. -/
theorem visit_round {d' : Declaration} {sh : Shorthand} {members : List NodeId}
    {old : List (NodeId × String)} (ht : s.optimizeDeclaration read id = .ok t)
    (hcompletes : s.Completes id sh members) (htrims : Trims s t id (members.filter (· != id)))
    (hd' : t.declaration? id = some d') (hname : d'.name = sh.name)
    (hmerged : Merged old (s.labels group)) :
    Underway t group todo ∧ Merged old (t.labels group) := by
  have hforest := h.isForest
  have hsh := hcompletes.mem_all
  have hid := mem_rule_iff.1 (hrule ▸ List.mem_append_right done List.mem_cons_self)
  have hcomplete := hcompletes.mem_names (hforest.parent?_of_mem_children hid.1)
  have hdone := h.not_mem_members hrule hids hsh hcomplete
  obtain ⟨hrule', hback⟩ := hcompletes.rule_eq hforest hrule hdone htrims hd'
  constructor
  · refine h.next ht ⟨done ++ [(id, d')], _, by rw [hrule', List.append_assoc]; rfl, ?_⟩
    exact htrims.map_fst_filter hids
  · obtain ⟨e, he, hof⟩ := hcompletes.own
    rw [hid.2] at he
    cases he
    have hmember : d.name ∈ sh.members := (Shorthand.mem_all_of_ofMember? hof).2
    have hlabels : t.labels group = ((s.labels group).filter (·.1 ∉ members.filter (· != id))).map
        fun p => if p.1 = id then (id, sh.name) else p := by
      rw [labels, htrims.rule_update hid.2 (by simp) hd', labels, List.filter_map, List.map_map,
        List.map_map]
      refine List.map_congr_left fun p _ => ?_
      dsimp only [Function.comp_apply]
      split
      · rw [hname]
      · rfl
    refine ⟨hmerged.exists_fate hsh hlabels ?_, fun other => hmerged.exists_rounds hsh ?_⟩
    · intro p hp hchanged
      obtain ⟨⟨i, e⟩, hmem, rfl⟩ := List.mem_map.1 hp
      have hi := (mem_rule_iff.1 hmem).2
      rcases hchanged with rfl | hgone
      · rw [hid.2] at hi
        cases hi
        exact hmember
      · obtain ⟨property, hproperty, hfirst⟩ :=
          hcompletes.exists_property (List.mem_filter.1 hgone).1
        obtain ⟨-, e', he', rfl⟩ := firstNamed?_eq_some hfirst
        rw [hi] at he'
        cases he'
        exact hproperty
    · have hold : s.declarationsIn group = done.map (·.2) ++ d :: rest.map (·.2) := by
        rw [← map_snd_rule, hrule, List.map_append, List.map_cons]
      have hnew : t.declarationsIn group = done.map (·.2) ++ d' ::
          withoutFirst (sh.members.erase d.name) (rest.map (·.2)) := by
        rw [← map_snd_rule, hrule', List.map_append, List.map_cons, hback]
      rw [map_snd_labels, map_snd_labels, hold, hnew, ← hname]
      refine perm_withoutFirst (Shorthand.wellFormed_of_mem hsh).nodup hmember _ fun name hmem => ?_
      have hnamed := hcomplete name hmem
      rw [hold, List.map_append] at hnamed
      refine (List.mem_append.1 hnamed).resolve_left fun hfront => ?_
      rw [List.map_map] at hfront
      obtain ⟨p, hp, rfl⟩ := List.mem_map.1 hfront
      exact hdone p hp hmem

omit hrule hids in
/-- One visit of the pass, in the rule or in another one. A declaration that was merged before its
turn is passed over. -/
theorem step {old : List (NodeId × String)} (ht : s.optimizeAttached read id = .ok t)
    (hmerged : Merged old (s.labels group)) :
    Underway t group todo ∧ Merged old (t.labels group) := by
  have hforest := h.isForest
  have hpends := h.pends.step h.isForest ht
  unfold optimizeAttached at ht
  by_cases hparent : s.parent? id = some group
  · obtain ⟨done, d, rest, hrule, hids⟩ := h.exists_next hparent
    have hd := (mem_rule_iff.1 (hrule ▸ List.mem_append_right done List.mem_cons_self)).2
    have hattached : s.isAttached id = true := by
      refine hforest.isAttached_iff.2 (.inr (hforest.mem_descendants_iff.2 ?_))
      rcases h.inTree with rfl | hbelow
      · exact .single hparent
      · exact .head hparent hbelow
    rw [if_pos hattached] at ht
    obtain ⟨d', hd', ⟨htrims, hname⟩ | ⟨sh, members, hcompletes, htrims, hname⟩⟩ :=
      h.isForest.visit_label hd ht
    · obtain ⟨hunderway, hlabels⟩ := h.visit_kept hrule hids ht htrims hd' hname
      exact ⟨hunderway, hlabels ▸ hmerged⟩
    · exact h.visit_round hrule hids ht hcompletes htrims hd' hname hmerged
  · split at ht
    · obtain ⟨hunderway, hlabels⟩ := h.visit_other hparent ht
      exact ⟨hunderway, hlabels ▸ hmerged⟩
    · cases ht
      refine ⟨{ h with pends := hpends.2, split := ?_ }, hmerged⟩
      obtain ⟨done, rest, hrule, hids⟩ := h.split
      rw [List.filter_cons_of_neg (by simpa using hparent)] at hids
      exact ⟨done, rest, hrule, hids⟩

end Underway

/-- The pass as a whole: the rule is merged, and no visit is left that could complete a set. The
group may be the root or any group of the tree, and the reader any one that did not fail. -/
theorem IsForest.merged_optimizeDeclarations (hs : s.IsForest)
    (hgroup : group = root ∨ group ∈ s.groups root) (ht : s.optimizeDeclarations read = .ok t) :
    Underway t group [] ∧ Merged (s.labels group) (t.labels group) := by
  have hinTree : s.InTree group := hgroup.imp_right hs.below_of_mem_groups
  have hisGroup : s.declaration? group = none := by
    rcases hgroup with rfl | hgroup
    · obtain ⟨g, hg⟩ := Option.isSome_iff_exists.1 hs.root_group
      rw [declaration?, group?_eq_some_iff.1 hg]
    · exact declaration?_of_mem_groups hgroup
  have hstart : Underway s group (s.declarations root) :=
    ⟨hs, hinTree, hisGroup, hs.pends_declarations,
      [], s.rule group, rfl, (hs.filter_declarations hinTree).symm⟩
  exact foldlM_induction
    (motive := fun todo u => Underway u group todo ∧ Merged (s.labels group) (u.labels group))
    ⟨hstart, .refl _⟩ (fun _ _ _ _ h hvisit => h.1.step hvisit h.2) ht

/-- Shorthand merging is exact and saturating. In every group each shorthand comes in as often as
there is a complete set of its members, and each member goes as often; all other declarations keep
their names and their order. How often is counted in the rule before the pass, also where sets begin
before others are complete. Nothing is assumed about the values; groups without content may be taken
out afterwards or not. -/
theorem saturated_optimizeDeclarations (hs : s.IsForest)
    (hgroup : group = root ∨ group ∈ s.groups root) (read : Color.Reader) (prune : Bool) :
    (∀ t, s.optimizeDeclarations read = .ok t →
      let old := s.labels group
      let new := (t.passIf prune pruneGroups).labels group
      (∀ sh ∈ Shorthand.all,
        (new.map (·.2)).count sh.name = (old.map (·.2)).count sh.name + sh.sets (old.map (·.2)) ∧
        ∀ member ∈ sh.members,
          (new.map (·.2)).count member + sh.sets (old.map (·.2)) = (old.map (·.2)).count member) ∧
      ∃ fate : NodeId × String → Option String,
        new = old.filterMap (fun p => (fate p).map (p.1, ·)) ∧
        ∀ p ∈ old, fate p = some p.2 ∨
          ∃ sh ∈ Shorthand.all, p.2 ∈ sh.members ∧ (fate p = none ∨ fate p = some sh.name)) ∧
    (read.Total → ∃ t, s.optimizeDeclarations read = .ok t) := by
  refine ⟨fun t ht => ?_, fun hread => exists_optimizeDeclarations_eq_ok hread s⟩
  obtain ⟨hend, hmerged⟩ := hs.merged_optimizeDeclarations hgroup ht
  have hprune : (t.passIf prune pruneGroups).labels group = t.labels group := by
    unfold passIf
    split
    · rw [labels, hend.isForest.rule_pruneGroups, labels]
    · rfl
  dsimp only
  rw [hprune]
  refine ⟨fun sh hsh => ?_, hmerged.outcome⟩
  obtain ⟨rounds, hname, hmembers⟩ := hmerged.counts sh hsh
  have hincomplete := hend.pends.incomplete group hend.inTree sh hsh
  rw [IsComplete, ← map_snd_labels] at hincomplete
  push Not at hincomplete
  rw [Shorthand.sets_eq hmembers hincomplete]
  exact ⟨hname, hmembers⟩

/-- A rule with two sets of margins, where the second one begins before the first one is complete,
and with paddings that are no set. -/
def twoSetsText : String :=
  "a\x7bmargin-top:1px;margin-top:2px;padding-top:0;margin-right:3px;margin-left:4px;" ++
    "margin-bottom:5px;margin-left:6px;margin-bottom:7px;padding-left:0;margin-right:8px\x7d"

theorem saturated_optimizeDeclarations_twoSetsText :
    let s := parse true twoSetsText
    s.IsForest ∧ 1 ∈ s.groups root ∧
      (s.labels 1).map (·.2) = ["margin-top", "margin-top", "padding-top", "margin-right",
        "margin-left", "margin-bottom", "margin-left", "margin-bottom", "padding-left",
        "margin-right"] ∧
      ∃ t, s.optimizeDeclarations Color.steadyHex = .ok t ∧
        ((t.pruneGroups.labels 1).map (·.2)).count "margin" = 2 ∧
        ((t.pruneGroups.labels 1).map (·.2)).count "padding-top" = 1 := by
  intro s
  have hforest : s.IsForest := isForest_parse true twoSetsText
  obtain ⟨hgroup, hnames⟩ : 1 ∈ s.groups root ∧ (s.labels 1).map (·.2) =
      ["margin-top", "margin-top", "padding-top", "margin-right", "margin-left", "margin-bottom",
        "margin-left", "margin-bottom", "padding-left", "margin-right"] := by
    decide +kernel
  obtain ⟨hmerged, hends⟩ :=
    saturated_optimizeDeclarations hforest (.inr hgroup) Color.steadyHex true
  obtain ⟨t, ht⟩ := hends Color.total_steadyHex
  obtain ⟨hcounts, -⟩ := hmerged t ht
  rw [hnames] at hcounts
  refine ⟨hforest, hgroup, hnames, t, ht, ?_, ?_⟩
  · exact (hcounts ⟨"margin", ["margin-top", "margin-right", "margin-bottom", "margin-left"]⟩
      (by simp [Shorthand.all])).1
  · exact (hcounts ⟨"padding", ["padding-top", "padding-right", "padding-bottom", "padding-left"]⟩
      (by simp [Shorthand.all])).2 "padding-top" (by decide)

end Sheetsmith.Sheet
