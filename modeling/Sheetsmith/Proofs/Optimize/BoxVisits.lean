import Sheetsmith.Proofs.Optimize.Rounds
import Sheetsmith.Proofs.Value.Harmless

namespace Sheetsmith

open Value

namespace Sheet

variable {s t : Sheet} {id group : NodeId} {d : Declaration} {sh : Shorthand} {read : Color.Reader}

/-- The declarations that are merged: the first one of each member, in the order of the members. No
member is missing, and none is taken twice. -/
theorem Completes.firsts {members : List NodeId} (h : s.Completes id sh members)
    (hparent : s.parent? id = some group) :
    ∃ firsts, members.filterMap s.declaration? = firsts ∧ firsts.map (·.name) = sh.members ∧
      ∀ first ∈ firsts, (s.declarationsIn group).find? (·.name == first.name) = some first := by
  have hfirst := h.first
  clear h
  generalize sh.members = properties at hfirst
  induction hfirst with
  | nil => exact ⟨[], rfl, rfl, by simp⟩
  | @cons property member properties members hmember _ ih =>
    obtain ⟨firsts, hfirsts, hnames, hrest⟩ := ih
    rw [firstNamed?_eq hparent] at hmember
    obtain ⟨⟨number, first⟩, hfind, rfl⟩ := Option.map_eq_some_iff.1 hmember
    have hd := (mem_rule_iff.1 (List.mem_of_find?_eq_some hfind)).2
    have hname : first.name = property := by simpa using List.find?_some hfind
    refine ⟨first :: firsts, by rw [List.filterMap_cons_some hd, hfirsts],
      by rw [List.map_cons, hname, hnames], List.forall_mem_cons.2 ⟨?_, hrest⟩⟩
    rw [← map_snd_rule, List.find?_map, hname]
    exact Option.map_eq_some_iff.2 ⟨_, hfind, rfl⟩

/-- What a visit does in a rule that declares nothing but the sides of one box: it shortens the
declaration, or puts the shorthand in its place where all members are declared. The words that name
colours or weights make no difference there, as the values are lengths. -/
theorem IsDocument.visit_box (hs : s.IsDocument) (hsh : sh.IsBox)
    (hsets : ∀ e ∈ s.declarationsIn group, sh.Sets e) (hmem : (id, d) ∈ s.rule group)
    (h : s.optimizeDeclaration read id = .ok t) :
    (Trims s t id [] ∧ t.declaration? id = some d.shortened ∧ (d.name = sh.name ∨
      ∃ member ∈ sh.members, member ∉ (s.declarationsIn group).map (·.name))) ∨
    (d.name ∈ sh.members ∧ ∃ members, s.Completes id sh members ∧
      Trims s t id (members.filter (· != id)) ∧ t.declaration? id = some (Declaration.shortened
        ⟨sh.name, " ".intercalate ((members.filterMap s.declaration?).map (·.value))⟩)) := by
  obtain ⟨hid, hd⟩ := mem_rule_iff.1 hmem
  have hparent := hs.isForest.parent?_of_mem_children hid
  have hset : sh.Sets d := hsets d (by
    rw [← map_snd_rule]
    exact List.mem_map_of_mem hmem)
  have hname : d.name ∈ sh.name :: sh.members :=
    hset.elim (fun h => by simp [h.1]) fun h => by simp [h.1]
  have hwords (property value : String) (hproperty : property ∈ sh.name :: sh.members)
      (hvalue : IsBoxValue value) : optimizeWords read property value = .ok value :=
    hvalue.optimizeWords read (hsh.plain property hproperty).1 (hsh.plain property hproperty).2
  rcases optimizeDeclaration_eq_ok h with ⟨hnone, -⟩ | ⟨d', value, hd', hvalue, hvisit⟩
  · rw [hd] at hnone
    cases hnone
  · rw [hd] at hd'
    cases hd'
    rw [hwords d.name d.value hname hset.isBoxValue] at hvalue
    cases hvalue
    dsimp only at hvisit
    rw [modifyDeclaration_eq_self hd rfl] at hvisit
    rcases hvisit with ⟨hnone, rfl⟩ | ⟨name, joined, merged, value', hmerge, hvalue', rfl⟩
    · refine .inl ⟨(Trims.refl s id).modifyDeclaration _, ?_, ?_⟩
      · rw [declaration?_modifyDeclaration, if_pos rfl, hd]
        rfl
      · refine (List.mem_cons.1 hname).imp_right fun hmember => ?_
        obtain ⟨member, hmember', hfirst⟩ :=
          mergeShorthand?_eq_none hd hnone sh (hsh.ofMember?_member d.name hmember)
        refine ⟨member, hmember', fun hmem => ?_⟩
        rw [firstNamed?_eq hparent, Option.map_eq_none_iff, List.find?_eq_none] at hfirst
        rw [← map_snd_rule, List.map_map] at hmem
        obtain ⟨p, hp, hpname⟩ := List.mem_map.1 hmem
        exact hfirst p hp (by simpa using hpname)
    · obtain ⟨shorthand, members, hcompletes, rfl, rfl, rfl⟩ := mergeShorthand?_eq_some hmerge
      obtain ⟨own, hown, hof⟩ := hcompletes.own
      rw [hd] at hown
      cases hown
      have hmember : d.name ∈ sh.members := by
        refine (List.mem_cons.1 hname).resolve_left fun heq => ?_
        rw [heq, hsh.ofMember?_name] at hof
        cases hof
      rw [hsh.ofMember?_member d.name hmember] at hof
      cases hof
      obtain ⟨firsts, hfirsts, hnames, hfind⟩ := hcompletes.firsts hparent
      have hmerged := (hsh.setting_merged 0 hnames fun x hx =>
        hsets x (List.mem_of_find?_eq_some (hfind x hx))).1
      rw [← hfirsts] at hmerged
      rw [hwords sh.name _ (by simp) hmerged.isBoxValue] at hvalue'
      cases hvalue'
      have htrims := hs.isForest.trims_removeAll id (members.filter (· != id))
      refine .inr ⟨hmember, members, hcompletes,
        (htrims.modifyDeclaration _).modifyDeclaration _, ?_⟩
      rw [declaration?_modifyDeclaration, if_pos rfl, declaration?_modifyDeclaration, if_pos rfl,
        declaration?_removeAll, hd]
      rfl

/-- The pass in the middle of a rule that declares nothing but the sides of one box: `done` are the
declarations that were visited, and the others are still to come. -/
structure Halfway (sh : Shorthand) (s : Sheet) (group : NodeId)
    (done : List (NodeId × Declaration)) (todo : List NodeId) : Prop where
  isDocument : s.IsDocument
  below : s.Below group root
  isGroup : s.declaration? group = none
  sets : ∀ d ∈ s.declarationsIn group, sh.Sets d
  settles : sh.Settles ((s.declarationsIn group).map (·.name))
  split : ∃ rest, s.rule group = done ++ rest ∧
    rest.map (·.1) = todo.filter fun i => s.parent? i == some group
  /-- As long as all members are declared, each visit leaves a shorthand behind. -/
  shorthands : (∀ member ∈ sh.members, member ∈ (s.declarationsIn group).map (·.name)) →
    ∀ p ∈ done, p.2.name = sh.name

/-- The sides of a box are the same lengths in both rules. -/
def SameSides (sh : Shorthand) (ds es : List Declaration) : Prop :=
  ∀ side, (sh.cascade side ds).map lengthKey = (sh.cascade side es).map lengthKey

namespace Halfway

variable {done : List (NodeId × Declaration)} {todo : List NodeId} (hsh : sh.IsBox)
  (h : Halfway sh s group done (id :: todo))
include h

/-- A visit in another rule leaves this one, and the pass in the middle of it. What the visit does
there, and whether it merges or not, does not matter. -/
theorem visit_other (hparent : s.parent? id ≠ some group)
    (ht : s.optimizeDeclaration read id = .ok t) :
    Halfway sh t group done todo ∧ t.declarationsIn group = s.declarationsIn group := by
  have hforest := h.isDocument.isForest
  have hdocument := h.isDocument.optimizeDeclaration ht
  obtain ⟨-, gone, htrims, hgone⟩ := hforest.trims_optimizeDeclaration ht
  have hrule := htrims.rule_of_ne hforest (fun i hi => (hgone i hi).1) hparent
  have hdeclarations : t.declarationsIn group = s.declarationsIn group := by
    rw [← map_snd_rule, hrule, map_snd_rule]
  have hfilter := htrims.parent?_beq_of_ne hforest (fun i hi => (hgone i hi).1) hparent
  refine ⟨⟨hdocument, htrims.below hforest (fun i hi => (hgone i hi).2) h.isGroup h.below,
    declaration?_optimizeDeclaration_eq_none ht h.isGroup, ?_, ?_, ?_, ?_⟩, hdeclarations⟩
  · rw [hdeclarations]
    exact h.sets
  · rw [hdeclarations]
    exact h.settles
  · obtain ⟨rest, hrest, hids⟩ := h.split
    refine ⟨rest, hrule.trans hrest, ?_⟩
    rw [hids, List.filter_cons_of_neg (by simpa using hparent)]
    exact List.filter_congr fun i _ => (hfilter i).symm
  · rw [hdeclarations]
    exact h.shorthands

/-- The next declaration to be visited in the rule is the first one that is not done. What stands in
front of it has been visited, or was put there by a visit. -/
theorem exists_next (hparent : s.parent? id = some group) :
    ∃ d rest, s.rule group = done ++ (id, d) :: rest ∧
      rest.map (·.1) = todo.filter fun i => s.parent? i == some group := by
  obtain ⟨rest, hrule, hids⟩ := h.split
  rw [List.filter_cons_of_pos (by simpa using hparent)] at hids
  obtain ⟨⟨i, d⟩, rest, rfl, rfl, hrest⟩ := List.map_eq_cons_iff.1 hids
  exact ⟨d, rest, hrule, hrest⟩

include hsh

/-- A visit of the rule that only shortens the declaration. Each side is set to the same length as
before. -/
theorem visit_shortened {rest : List (NodeId × Declaration)}
    (hrule : s.rule group = done ++ (id, d) :: rest)
    (hids : rest.map (·.1) = todo.filter fun i => s.parent? i == some group)
    (hdocument : t.IsDocument) (htrims : Trims s t id []) (hd : t.declaration? id = some d.shortened)
    (hname : d.name = sh.name ∨
      ∃ member ∈ sh.members, member ∉ (s.declarationsIn group).map (·.name)) :
    Halfway sh t group (done ++ [(id, d.shortened)]) todo ∧
      SameSides sh (t.declarationsIn group) (s.declarationsIn group) := by
  have hforest := h.isDocument.isForest
  have hrule' : t.rule group = done ++ (id, d.shortened) :: rest := by
    have hfilter (ps : List (NodeId × Declaration)) : ps.filter (·.1 ∉ ([] : List NodeId)) = ps := by
      simp
    rw [htrims.rule_eq hforest hrule (by simp) hd, hfilter, hfilter]
  have hold : s.declarationsIn group = done.map (·.2) ++ d :: rest.map (·.2) := by
    rw [← map_snd_rule, hrule, List.map_append, List.map_cons]
  have hnew : t.declarationsIn group = done.map (·.2) ++ d.shortened :: rest.map (·.2) := by
    rw [← map_snd_rule, hrule', List.map_append, List.map_cons]
  have hnames : (t.declarationsIn group).map (·.name) = (s.declarationsIn group).map (·.name) := by
    rw [hold, hnew]
    simp [Declaration.shortened]
  have hsets : sh.Sets d := h.sets d (by rw [hold]; simp)
  have hne : group ≠ id := by
    rintro rfl
    have := (mem_rule_iff.1 (hrule ▸ List.mem_append_right done (List.mem_cons_self))).2
    rw [h.isGroup] at this
    cases this
  refine ⟨⟨hdocument, htrims.below hforest (by simp) h.isGroup h.below,
    by rw [htrims.declaration group hne, h.isGroup], ?_, ?_, ?_, ?_⟩, fun side => ?_⟩
  · intro e he
    rw [hnew] at he
    rcases List.mem_append.1 he with he | he
    · exact h.sets e (by rw [hold]; simp only [List.mem_append]; exact .inl he)
    · rcases List.mem_cons.1 he with rfl | he
      · exact hsets.shortened
      · exact h.sets e (by rw [hold]; simp only [List.mem_append, List.mem_cons]; exact .inr (.inr he))
  · rw [hnames]
    exact h.settles
  · refine ⟨rest, by rw [hrule', List.append_assoc]; rfl, hids.trans ?_⟩
    refine List.filter_congr fun i _ => ?_
    rw [htrims.parent]
    simp
  · rw [hnames]
    intro hcomplete p hp
    rcases List.mem_append.1 hp with hp | hp
    · exact h.shorthands hcomplete p hp
    · obtain rfl := List.mem_singleton.1 hp
      refine hname.resolve_right ?_
      rintro ⟨member, hmember, hnot⟩
      exact hnot (hcomplete member hmember)
  · rw [hnew, hold, Shorthand.cascade_append, Shorthand.cascade_append, Shorthand.cascade_cons,
      Shorthand.cascade_cons, Option.map_or, Option.map_or, Option.map_or, Option.map_or,
      hsh.setting_shortened hsets]

/-- A visit of the rule that completes the members makes a round of them: those in front are all
shorthands, since each visit has left one behind. -/
theorem round {rest : List (NodeId × Declaration)} {members : List NodeId}
    (hrule : s.rule group = done ++ (id, d) :: rest) (hmember : d.name ∈ sh.members)
    (hcompletes : s.Completes id sh members) :
    sh.Round (done.map (·.2)) d (rest.map (·.2)) ∧ ∀ p ∈ done, p.2.name = sh.name := by
  have hforest := h.isDocument.isForest
  have hparent := hforest.parent?_of_mem_children
    (mem_rule_iff.1 (hrule ▸ List.mem_append_right done List.mem_cons_self)).1
  have hold : s.declarationsIn group = done.map (·.2) ++ d :: rest.map (·.2) := by
    rw [← map_snd_rule, hrule, List.map_append, List.map_cons]
  have hcomplete := hcompletes.mem_names hparent
  have hdone := h.shorthands hcomplete
  refine ⟨⟨hold ▸ h.sets, ?_, hmember, fun member hm => ?_⟩, hdone⟩
  · intro e he
    obtain ⟨p, hp, rfl⟩ := List.mem_map.1 he
    exact hdone p hp
  · have hmem := hcomplete member hm
    rw [hold, List.map_append] at hmem
    refine (List.mem_append.1 hmem).resolve_left fun hfront => ?_
    rw [List.map_map] at hfront
    obtain ⟨p, hp, rfl⟩ := List.mem_map.1 hfront
    exact hsh.not_mem (hdone p hp ▸ hm)

end Halfway

end Sheet

end Sheetsmith
