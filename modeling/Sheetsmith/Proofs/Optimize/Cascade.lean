import Sheetsmith.Proofs.Optimize.BoxVisits

namespace Sheetsmith

open Value

namespace Sheet

variable {s t : Sheet} {id group : NodeId} {d : Declaration} {sh : Shorthand} {read : Color.Reader}

namespace Halfway

variable {done : List (NodeId × Declaration)} {todo : List NodeId} (hsh : sh.IsBox)
  (h : Halfway sh s group done (id :: todo))
include h hsh

/-- A visit of the rule that makes a round, and then shortens the new shorthand. What was done
before are shorthands, so they stay in place. -/
theorem visit_merged {rest : List (NodeId × Declaration)} {members : List NodeId}
    (hrule : s.rule group = done ++ (id, d) :: rest)
    (hids : rest.map (·.1) = todo.filter fun i => s.parent? i == some group)
    (hdocument : t.IsDocument) (hmember : d.name ∈ sh.members)
    (hcompletes : s.Completes id sh members) (htrims : Trims s t id (members.filter (· != id)))
    (hd : t.declaration? id = some (Declaration.shortened
      ⟨sh.name, " ".intercalate ((members.filterMap s.declaration?).map (·.value))⟩)) :
    ∃ done', Halfway sh t group done' todo ∧
      SameSides sh (t.declarationsIn group) (s.declarationsIn group) := by
  have hforest := h.isDocument.isForest
  have hid := mem_rule_iff.1 (hrule ▸ List.mem_append_right done List.mem_cons_self)
  have hparent := hforest.parent?_of_mem_children hid.1
  obtain ⟨hround, hdone⟩ := h.round hsh hrule hmember hcompletes
  obtain ⟨firsts, hfirsts, hnames, hfind⟩ := hcompletes.firsts hparent
  have hsetsFirsts : ∀ x ∈ firsts, sh.Sets x := fun x hx =>
    h.sets x (List.mem_of_find?_eq_some (hfind x hx))
  rw [hfirsts] at hd
  generalize hmerged : (⟨sh.name, " ".intercalate (firsts.map (·.value))⟩ : Declaration) = merged at hd
  have hname : merged.shortened.name = sh.name := by rw [← hmerged]; rfl
  have hsets : sh.Sets merged := hmerged ▸ (hsh.setting_merged 0 hnames hsetsFirsts).1
  have hnone : ∀ p ∈ done, p.2.name ∉ sh.members := fun p hp hmem =>
    hsh.not_mem (hdone p hp ▸ hmem)
  obtain ⟨hrule', hback⟩ := hcompletes.rule_eq hforest hrule hnone htrims hd
  have hold : s.declarationsIn group = done.map (·.2) ++ d :: rest.map (·.2) := by
    rw [← map_snd_rule, hrule, List.map_append, List.map_cons]
  have hnew : t.declarationsIn group = done.map (·.2) ++ merged.shortened ::
      withoutFirst (sh.members.erase d.name) (rest.map (·.2)) := by
    rw [← map_snd_rule, hrule', List.map_append, List.map_cons, hback]
  have hsettles := h.settles
  rw [hold] at hsettles
  have hne : group ≠ id := by
    rintro rfl
    rw [h.isGroup] at hid
    cases hid.2
  refine ⟨done ++ [(id, merged.shortened)], ⟨hdocument, ?_, ?_, ?_, ?_, ?_, ?_⟩, fun side => ?_⟩
  · refine htrims.below hforest (fun i hi => ?_) h.isGroup h.below
    obtain ⟨property, -, hfirst⟩ := hcompletes.exists_property (List.mem_filter.1 hi).1
    obtain ⟨-, e, he, -⟩ := firstNamed?_eq_some hfirst
    rw [he]
    rfl
  · rw [htrims.declaration group hne, h.isGroup]
  · intro e he
    rw [hnew] at he
    rcases List.mem_append.1 he with he | he
    · exact hround.sets e (List.mem_append_left _ he)
    · rcases List.mem_cons.1 he with rfl | he
      · exact hsets.shortened
      · exact hround.sets e (List.mem_append_right _
          (List.mem_cons_of_mem _ ((withoutFirst_sublist _ _).subset he)))
  · rw [hnew]
    exact hround.settles hsh hsettles hname
  · exact ⟨rest.filter (·.1 ∉ members.filter (· != id)), by rw [hrule', List.append_assoc]; rfl,
      htrims.map_fst_filter hids⟩
  · intro _ p hp
    rcases List.mem_append.1 hp with hp | hp
    · exact hdone p hp
    · obtain rfl := List.mem_singleton.1 hp
      exact hname
  · rw [hnew, hold]
    refine hround.map_cascade_eq hsh hsettles fun member hside first hfirst => ?_
    rw [← hnames, List.getElem?_map, Option.map_eq_some_iff] at hside
    obtain ⟨first', hfirst', rfl⟩ := hside
    have hmem := List.mem_of_getElem? hfirst'
    have hmember' : first'.name ∈ sh.members := hnames ▸ List.mem_map_of_mem hmem
    have hsame : first = first' := by
      have hfind' := hfind first' hmem
      rw [hold, Shorthand.find?_append (fun e he hmem => hsh.not_mem (hround.front e he ▸ hmem))
        hmember', hfirst] at hfind'
      exact Option.some.inj hfind'
    rw [hsh.setting_shortened hsets, ← hmerged,
      (hsh.setting_merged side hnames hsetsFirsts).2 first' hfirst', hsame]

/-- One visit of the pass, in the rule or in another one, of a declaration that is there or one that
has been merged meanwhile. -/
theorem step (ht : s.optimizeAttached read id = .ok t) :
    ∃ done', Halfway sh t group done' todo ∧
      SameSides sh (t.declarationsIn group) (s.declarationsIn group) := by
  have hforest := h.isDocument.isForest
  unfold optimizeAttached at ht
  by_cases hparent : s.parent? id = some group
  · obtain ⟨d, rest, hrule, hids⟩ := h.exists_next hparent
    have hmem : (id, d) ∈ s.rule group := hrule ▸ List.mem_append_right done List.mem_cons_self
    have hattached : s.isAttached id = true := by
      rw [hforest.isAttached_iff]
      exact .inr (hforest.mem_descendants_iff.2 (.head hparent h.below))
    rw [if_pos hattached] at ht
    have hdocument := h.isDocument.optimizeDeclaration ht
    rcases h.isDocument.visit_box hsh h.sets hmem ht with
      ⟨htrims, hd, hname⟩ | ⟨hmember, members, hcompletes, htrims, hd⟩
    · exact ⟨_, h.visit_shortened hsh hrule hids hdocument htrims hd hname⟩
    · exact h.visit_merged hsh hrule hids hdocument hmember hcompletes htrims hd
  · split at ht
    · obtain ⟨hhalfway, hsame⟩ := h.visit_other hparent ht
      exact ⟨done, hhalfway, fun side => by rw [hsame]⟩
    · cases ht
      refine ⟨done, { h with split := ?_ }, fun side => rfl⟩
      obtain ⟨rest, hrule, hids⟩ := h.split
      rw [List.filter_cons_of_neg (by simpa using hparent)] at hids
      exact ⟨rest, hrule, hids⟩

omit h in
/-- The rest of the pass. The induction is on the declarations that are still to be visited, in the
whole tree. -/
theorem run {todo : List NodeId} (h : Halfway sh s group done todo)
    (ht : todo.foldlM (optimizeAttached read) s = .ok t) :
    t.IsDocument ∧ t.Below group root ∧
      SameSides sh (t.declarationsIn group) (s.declarationsIn group) := by
  have hfold := foldlM_induction (motive := fun todo u => ∃ done, Halfway sh u group done todo ∧
      SameSides sh (u.declarationsIn group) (s.declarationsIn group))
    ⟨done, h, fun side => rfl⟩ ?_ ht
  · obtain ⟨_, hend, hsame⟩ := hfold
    exact ⟨hend.isDocument, hend.below, hsame⟩
  · rintro id todo u v ⟨done, h, hsame⟩ hvisit
    obtain ⟨done', h', hsame'⟩ := h.step hsh hvisit
    exact ⟨done', h', fun side => (hsame' side).trans (hsame side)⟩

end Halfway

/-- Shorthand merging keeps the cascade, where no round of merged members takes the last declaration
of a side to the other side of a shorthand. In a rule that declares nothing but the sides of one
box, by lengths, each side is set to the same length before and after the pass. The condition on the
order is one on the names of the rule; the other rules of the document may hold anything, and the
pass may fail only in the reader of colours. -/
theorem cascade_optimizeDeclarations (hs : s.IsDocument) (hgroup : group ∈ s.groups root)
    (hsh : sh ∈ Shorthand.boxes) (hsets : ∀ d ∈ s.declarationsIn group, sh.Sets d)
    (hsettles : sh.Settles ((s.declarationsIn group).map (·.name))) (read : Color.Reader)
    (prune : Bool) :
    (∀ t, s.optimizeDeclarations read = .ok t → ∀ side,
      (sh.cascade side ((t.passIf prune pruneGroups).declarationsIn group)).map lengthKey =
        (sh.cascade side (s.declarationsIn group)).map lengthKey) ∧
    (read.Total → ∃ t, s.optimizeDeclarations read = .ok t) := by
  have hforest := hs.isForest
  have hbelow := hforest.below_of_mem_groups hgroup
  have hhalfway : Halfway sh s group [] (s.declarations root) :=
    ⟨hs, hbelow, declaration?_of_mem_groups hgroup, hsets, hsettles,
      ⟨s.rule group, rfl, (hforest.filter_declarations (.inr hbelow)).symm⟩, by simp⟩
  refine ⟨fun t ht side => ?_, fun hread => ?_⟩
  · obtain ⟨hdocument, -, hsame⟩ := hhalfway.run (Shorthand.isBox_of_mem hsh) ht
    have hprune : (t.passIf prune pruneGroups).declarationsIn group = t.declarationsIn group := by
      unfold passIf
      split
      · exact hdocument.isForest.declarationsIn_pruneGroups group
      · rfl
    rw [hprune, hsame side]
  · obtain ⟨t, ht, -⟩ := hs.exists_optimizeDeclarations_eq_ok hread
    exact ⟨t, ht⟩

/-- The sides of the margin. -/
def margin : Shorthand :=
  ⟨"margin", ["margin-top", "margin-right", "margin-bottom", "margin-left"]⟩

/-- A rule whose members are merged between two shorthands. -/
def marginText : String :=
  "a\x7bmargin:0.50px 00px;margin-top:01px;margin-right:2%;margin-bottom:0;margin-left:-0.5em;" ++
    "margin:0px;margin-top:2px\x7d"

theorem cascade_optimizeDeclarations_marginText :
    let s := parse true marginText
    s.IsDocument ∧ 1 ∈ s.groups root ∧ margin ∈ Shorthand.boxes ∧
      (∀ d ∈ s.declarationsIn 1, margin.Sets d) ∧
      margin.Settles ((s.declarationsIn 1).map (·.name)) ∧
      ∃ t, s.optimizeDeclarations Color.steadyHex = .ok t ∧ ∀ side,
        (margin.cascade side (t.pruneGroups.declarationsIn 1)).map lengthKey =
          (margin.cascade side (s.declarationsIn 1)).map lengthKey := by
  intro s
  have hdocument : s.IsDocument := isDocument_parse true marginText
  have hbox : margin ∈ Shorthand.boxes := by simp [margin, Shorthand.boxes, Shorthand.all]
  obtain ⟨hgroup, hrule⟩ : 1 ∈ s.groups root ∧ s.declarationsIn 1 =
      [⟨"margin", "0.50px 00px"⟩, ⟨"margin-top", "01px"⟩, ⟨"margin-right", "2%"⟩,
        ⟨"margin-bottom", "0"⟩, ⟨"margin-left", "-0.5em"⟩, ⟨"margin", "0px"⟩,
        ⟨"margin-top", "2px"⟩] := by
    decide +kernel
  have hsets : ∀ d ∈ s.declarationsIn 1, margin.Sets d := by
    rw [hrule]
    decide +kernel
  have hsettles : margin.Settles ((s.declarationsIn 1).map (·.name)) := by
    rw [hrule]
    decide
  obtain ⟨hcascade, hends⟩ := cascade_optimizeDeclarations hdocument hgroup hbox hsets hsettles
    Color.steadyHex true
  obtain ⟨t, ht⟩ := hends Color.total_steadyHex
  exact ⟨hdocument, hgroup, hbox, hsets, hsettles, t, ht, hcascade t ht⟩

/-- A rule where a shorthand stands between the first of the merged members and the others. -/
def hiddenText : String :=
  "a\x7bmargin-top:1px;margin:5px;margin-right:2px;margin-bottom:3px;margin-left:4px\x7d"

/-- The members behind the shorthand are merged in front of it, and it hides them. The rule meets
everything but the condition on the order of its names. -/
theorem cascade_optimizeDeclarations_ne :
    let s := parse true hiddenText
    1 ∈ s.groups root ∧ margin ∈ Shorthand.boxes ∧ (∀ d ∈ s.declarationsIn 1, margin.Sets d) ∧
      ∃ t, s.optimizeDeclarations Color.steadyHex = .ok t ∧
        (margin.cascade 1 (s.declarationsIn 1)).map lengthKey = some "2px".toList ∧
        (margin.cascade 1 (t.pruneGroups.declarationsIn 1)).map lengthKey = some "5px".toList := by
  intro s
  have hbox : margin ∈ Shorthand.boxes := by simp [margin, Shorthand.boxes, Shorthand.all]
  obtain ⟨hgroup, hrule⟩ : 1 ∈ s.groups root ∧ s.declarationsIn 1 =
      [⟨"margin-top", "1px"⟩, ⟨"margin", "5px"⟩, ⟨"margin-right", "2px"⟩, ⟨"margin-bottom", "3px"⟩,
        ⟨"margin-left", "4px"⟩] := by
    decide +kernel
  have hrun : (s.optimizeDeclarations Color.steadyHex).toOption.map
      (fun t => t.pruneGroups.declarationsIn 1) = some [⟨"margin", "1px 2px 3px 4px"⟩,
        ⟨"margin", "5px"⟩] := by
    decide +kernel
  obtain ⟨t, ht, hrule'⟩ := Option.map_eq_some_iff.1 hrun
  have hok : s.optimizeDeclarations Color.steadyHex = .ok t := by
    cases hout : s.optimizeDeclarations Color.steadyHex with
    | error e =>
      rw [hout] at ht
      cases ht
    | ok u =>
      rw [hout] at ht
      cases ht
      rfl
  rw [hrule]
  refine ⟨hgroup, hbox, by decide +kernel, t, hok, by decide +kernel, ?_⟩
  rw [hrule']
  decide +kernel

end Sheet

end Sheetsmith
