import Sheetsmith.Proofs.Optimize.Barren

namespace Sheetsmith

theorem Shorthand.ofMember?_of_mem {shorthand : Shorthand} (h : shorthand ∈ all) {member : String}
    (hmember : member ∈ shorthand.members) : ofMember? member = some shorthand := by
  simp only [all, List.mem_cons, List.not_mem_nil, or_false] at h
  rcases h with rfl | rfl | rfl | rfl | rfl | rfl | rfl <;>
  · simp only [List.mem_cons, List.not_mem_nil, or_false] at hmember
    rcases hmember with rfl | rfl | rfl | rfl | rfl | rfl <;> rfl

namespace Sheet

variable {s t : Sheet} {id i group : NodeId} {read : Color.Reader}

/-- A group of the tree, the root included. -/
def InTree (s : Sheet) (group : NodeId) : Prop :=
  group = root ∨ s.Below group root

/-- A group that is in the tree afterwards was there before, if no node got another parent. -/
theorem InTree.of_parent? (h : t.InTree group)
    (hparent : ∀ i up, t.parent? i = some up → s.parent? i = some up) : s.InTree group :=
  h.imp_right fun hbelow => Relation.TransGen.mono (fun i up => hparent i up) _ _ hbelow

/-- The children of a group of the tree are in the tree. -/
theorem InTree.below_of_parent? (h : s.InTree group)
    (hparent : s.parent? id = some group) : s.Below id root := by
  rcases h with rfl | hbelow
  · exact .single hparent
  · exact .head hparent hbelow

/-- A group declares all members of a shorthand. -/
def IsComplete (s : Sheet) (group : NodeId) (shorthand : Shorthand) : Prop :=
  ∀ member ∈ shorthand.members, member ∈ (s.declarationsIn group).map (·.name)

/-- No group declares all members of a shorthand. -/
def Incomplete (s : Sheet) : Prop :=
  ∀ group, s.InTree group → ∀ shorthand ∈ Shorthand.all, ¬ s.IsComplete group shorthand

/-- Where a group declares all members of a shorthand, the declarations of members are still to be
visited. -/
def Pends (s : Sheet) (todo : List NodeId) : Prop :=
  ∀ group, s.InTree group → ∀ shorthand ∈ Shorthand.all, s.IsComplete group shorthand →
    ∀ p ∈ s.rule group, p.2.name ∈ shorthand.members → p.1 ∈ todo

/-- All members are declared when each one is found in the rule. -/
theorem isComplete_iff {shorthand : Shorthand} : s.IsComplete group shorthand ↔
    ∀ member ∈ shorthand.members, ∃ p ∈ s.rule group, p.2.name = member := by
  simp only [IsComplete, ← map_snd_rule, List.map_map, List.mem_map, Function.comp_apply]

/-- When nothing is left to be visited, no group declares all members of a shorthand. -/
theorem Pends.incomplete (h : s.Pends []) : s.Incomplete := by
  intro group hgroup shorthand hshorthand hcomplete
  have htwo := (Shorthand.wellFormed_of_mem hshorthand).two_le
  obtain ⟨member, hmember⟩ := List.exists_mem_of_length_pos (by omega : 0 < shorthand.members.length)
  obtain ⟨p, hp, rfl⟩ := isComplete_iff.1 hcomplete member hmember
  exact List.not_mem_nil (h group hgroup shorthand hshorthand hcomplete p hp hmember)

/-- Values do not matter for what is found by its name. The changed declaration may be any one, also
the one that is found. -/
theorem firstNamed?_modifyDeclaration {f : Declaration → Declaration}
    (hf : ∀ d, (f d).name = d.name) (property : String) :
    (s.modifyDeclaration id f).firstNamed? i property = s.firstNamed? i property := by
  have hfamily : (s.modifyDeclaration id f).family i = s.family i := by
    unfold family
    simp
  unfold firstNamed?
  rw [hfamily]
  congr 1
  funext j
  rw [declaration?_modifyDeclaration]
  split
  · cases s.declaration? j with
    | none => rfl
    | some d => rw [Option.map_some, Option.any_some, Option.any_some, hf]
  · rfl

/-- A visit keeps the name of a declaration, where a member of its shorthand is missing, or it gives
it the name of a shorthand. -/
theorem name_optimizeDeclaration {d' : Declaration} (h : s.optimizeDeclaration read id = .ok t)
    (hd' : t.declaration? id = some d') :
    (∃ shorthand ∈ Shorthand.all, d'.name = shorthand.name) ∨
      ∀ shorthand, Shorthand.ofMember? d'.name = some shorthand →
        ∃ member ∈ shorthand.members, t.firstNamed? id member = none := by
  rcases optimizeDeclaration_eq_ok h with ⟨hnone, rfl⟩ | ⟨d, value, hd, -, hvisit⟩
  · rw [hnone] at hd'
    cases hd'
  · rcases hvisit with ⟨hmerge, rfl⟩ | ⟨name, joined, merged, value', hmerge, -, rfl⟩
    · rw [declaration?_modifyDeclaration, if_pos rfl] at hd'
      obtain ⟨worded, hworded, rfl⟩ := Option.map_eq_some_iff.1 hd'
      refine .inr fun shorthand hshorthand => ?_
      obtain ⟨member, hmember, hnone⟩ := mergeShorthand?_eq_none hworded hmerge shorthand hshorthand
      refine ⟨member, hmember, ?_⟩
      rw [← hnone]
      exact firstNamed?_modifyDeclaration
        (f := fun d => { d with value := Value.optimizeUnits d.name d.value }) (fun _ => rfl) member
    · obtain ⟨shorthand, members, hcompletes, rfl, -, rfl⟩ := mergeShorthand?_eq_some hmerge
      rw [declaration?_modifyDeclaration, if_pos rfl, declaration?_modifyDeclaration, if_pos rfl,
        Option.map_map] at hd'
      obtain ⟨-, -, rfl⟩ := Option.map_eq_some_iff.1 hd'
      exact .inl ⟨shorthand, hcompletes.mem_all, rfl⟩

/-- What has a parent after a visit had the same one before. -/
theorem Trims.parent?_of_parent? {gone : List NodeId} (h : Trims s t id gone) {up : NodeId}
    (hup : t.parent? i = some up) : s.parent? i = some up := by
  rw [h.parent] at hup
  split at hup
  · cases hup
  · exact hup

namespace Pends

/-- After a visit, a group that still declares all members of a shorthand has had all their
declarations before, and the visited one is none of them. -/
theorem visit {todo : List NodeId} (h : s.Pends (id :: todo)) (hs : s.IsForest)
    (ht : s.optimizeDeclaration read id = .ok t) : t.Pends todo := by
  obtain ⟨hforest, gone, htrims, -⟩ := hs.trims_optimizeDeclaration ht
  intro group hgroup shorthand hshorthand hcomplete
  have hmembers := isComplete_iff.1 hcomplete
  have hold : ∀ p ∈ t.rule group, p.2.name ∈ shorthand.members → p.1 ≠ id ∧ p ∈ s.rule group := by
    rintro ⟨i, d⟩ hp hname
    obtain ⟨hi, hd⟩ := mem_rule_iff.1 hp
    have hne : i ≠ id := by
      rintro rfl
      have hof := Shorthand.ofMember?_of_mem hshorthand hname
      rcases name_optimizeDeclaration ht hd with ⟨other, hother, heq⟩ | hmissing
      · rw [heq, (Shorthand.wellFormed_of_mem hother).not_member] at hof
        cases hof
      · obtain ⟨member, hmember, hnone⟩ := hmissing shorthand hof
        obtain ⟨q, hq, rfl⟩ := hmembers member hmember
        rw [firstNamed?_eq (hforest.parent?_of_mem_children hi), Option.map_eq_none_iff,
          List.find?_eq_none] at hnone
        exact hnone q hq (by simp)
    refine ⟨hne, mem_rule_iff.2 ⟨?_, by rw [← htrims.declaration i hne, hd]⟩⟩
    rw [htrims.children] at hi
    exact (List.mem_filter.1 hi).1
  intro p hp hname
  obtain ⟨hne, hp'⟩ := hold p hp hname
  have hcomplete' : s.IsComplete group shorthand := by
    refine isComplete_iff.2 fun member hmember => ?_
    obtain ⟨q, hq, rfl⟩ := hmembers member hmember
    exact ⟨q, (hold q hq hmember).2, rfl⟩
  have hgroup' := hgroup.of_parent? fun i up => htrims.parent?_of_parent?
  exact (List.mem_cons.1 (h group hgroup' shorthand hshorthand hcomplete' p hp' hname)).resolve_left
    hne

/-- The same for a declaration that may have been taken out before its turn. -/
theorem step {todo : List NodeId} (h : s.Pends (id :: todo)) (hs : s.IsForest)
    (ht : s.optimizeAttached read id = .ok t) : t.IsForest ∧ t.Pends todo := by
  unfold optimizeAttached at ht
  split at ht
  · exact ⟨(hs.trims_optimizeDeclaration ht).1, h.visit hs ht⟩
  · next hdetached =>
    cases ht
    refine ⟨hs, fun group hgroup shorthand hshorthand hcomplete p hp hname => ?_⟩
    refine (List.mem_cons.1 (h group hgroup shorthand hshorthand hcomplete p hp hname)).resolve_left ?_
    rintro rfl
    have hparent := hs.parent?_of_mem_children (mem_rule_iff.1 hp).1
    refine hdetached (hs.isAttached_iff.2 (.inr (hs.mem_descendants_iff.2 ?_)))
    rcases hgroup with rfl | hgroup
    · exact .single hparent
    · exact .head hparent hgroup

end Pends

/-- At the start of the pass all declarations of the tree are to be visited. -/
theorem IsForest.pends_declarations (hs : s.IsForest) : s.Pends (s.declarations root) := by
  rintro group hgroup shorthand - - p hp -
  obtain ⟨hchild, hd⟩ := mem_rule_iff.1 hp
  have hparent := hs.parent?_of_mem_children hchild
  refine (Vendor.mem_declarations_iff hs).2 ⟨?_, by rw [hd]; rfl⟩
  rcases hgroup with rfl | hgroup
  · exact .single hparent
  · exact .head hparent hgroup

/-- When all declarations were visited, no group declares all members of a shorthand. This holds of
every forest, whatever values are in it. -/
theorem IsForest.incomplete_optimizeDeclarations (hs : s.IsForest)
    (ht : s.optimizeDeclarations read = .ok t) : t.Incomplete := by
  have hfold := foldlM_induction (motive := fun todo t => t.IsForest ∧ t.Pends todo)
    ⟨hs, hs.pends_declarations⟩ (fun _ _ _ _ h hvisit => h.2.step h.1 hvisit) ht
  exact hfold.2.incomplete

/-- Where only nodes that are no declarations are taken out, all rules stay incomplete. Nothing is
assumed about how the two sheets come to be. -/
theorem Incomplete.of_declarationsIn (h : s.Incomplete)
    (hparent : ∀ i up, t.parent? i = some up → s.parent? i = some up)
    (hrule : ∀ group, t.declarationsIn group = s.declarationsIn group) : t.Incomplete := by
  intro group hgroup shorthand hshorthand hcomplete
  refine h group (hgroup.of_parent? hparent) shorthand hshorthand fun member hmember => ?_
  rw [← hrule]
  exact hcomplete member hmember

end Sheet

end Sheetsmith
