import Sheetsmith.Proofs.Optimize.Everywhere
import Sheetsmith.Proofs.Optimize.Incomplete

namespace Sheetsmith.Sheet

variable {s t : Sheet} {id i group : NodeId} {read : Color.Reader}

/-- No group is without content. -/
def Filled (s : Sheet) : Prop :=
  ∀ id, s.Below id root → (s.group? id).isSome → s.children id ≠ []

/-- What is a group stays one when a node is taken out. -/
theorem isSome_group?_remove (s : Sheet) (id i : NodeId) :
    ((s.remove id).group? i).isSome = (s.group? i).isSome := by
  rcases node?_remove_eq_or s id i with heq | ⟨g, children, hold, heq⟩
  · rw [group?, heq, group?]
  · rw [group?, heq, group?, hold]
    rfl

/-- In a forest only the parent loses the node that is taken out, and it has it once. -/
theorem IsForest.children_remove_eq (hs : s.IsForest) (id group : NodeId) :
    (s.remove id).children group = (s.children group).filter (· ≠ id) := by
  rw [(hs.trims_remove id id).children]
  simp

theorem eq_or_mem_of_filter_ne_eq_nil {ids : List NodeId} (h : ids.filter (· ≠ id) = []) :
    ids = [] ∨ id ∈ ids := by
  cases ids with
  | nil => exact .inl rfl
  | cons first ids =>
    rw [List.filter_eq_nil_iff] at h
    have hfirst := h first (by simp)
    exact .inr (by simp_all)

/-- After the pass no group of the tree is without content. -/
theorem IsForest.filled_pruneGroups (hs : s.IsForest) : s.pruneGroups.Filled := by
  have hprunes := hs.prunes_pruneGroups
  intro id hid hgroup hnil
  have hbelow : s.Below id root := Relation.TransGen.mono (fun _ _ => hprunes.parent?_of) _ _ hid
  -- All of its children were taken out, so it has nothing but groups below it.
  have hbarren : id ∈ s.barrenGroups := by
    rw [hs.mem_barrenGroups_iff, hs.isBarren_eq, ← hprunes.kind?_eq, kind?_eq_group, hgroup,
      Bool.true_and, List.all_eq_true]
    refine ⟨hbelow, fun child hchild => ?_⟩
    rw [hprunes.children_eq, List.filter_eq_nil_iff] at hnil
    have hgone : child ∈ s.barrenGroups := by simpa using hnil child hchild
    exact (hs.mem_barrenGroups_iff.1 hgone).2
  obtain ⟨parent, hparent, -⟩ := Relation.TransGen.head'_iff.1 hid
  rw [hprunes.parent_eq, if_pos hbarren] at hparent
  cases hparent

/-- What a group leaves behind that was taken in by another one. Only the group around the two can
lose a child. -/
theorem Beside.children_absorb {other : NodeId} (h : s.Beside id other) (group : NodeId) :
    (s.absorb id other).children group = s.children group ∨
      ((s.group? other).isSome ∧
        (s.absorb id other).children group = (s.children group).filter (· ≠ other)) := by
  unfold absorb
  split
  · next hmore =>
    obtain ⟨g, hg, -⟩ := Option.bind_eq_some_iff.1 hmore
    refine .inr ⟨by rw [hg]; rfl, ?_⟩
    rw [(h.isDocument.setSelector h.ne_root _).isForest.children_remove_eq, children_setSelector]
  · exact .inl rfl

/-- No node gets another parent when one group takes another one in. -/
theorem parent?_absorb {other up : NodeId} (h : (s.absorb id other).parent? i = some up) :
    s.parent? i = some up := by
  unfold absorb at h
  split at h
  · rw [parent?_remove] at h
    split at h
    · cases h
    · rwa [parent?_setSelector] at h
  · exact h

theorem isSome_group?_absorb (s : Sheet) (id other i : NodeId) :
    ((s.absorb id other).group? i).isSome = (s.group? i).isSome := by
  unfold absorb
  split
  · rw [isSome_group?_remove, group?_setSelector]
    split <;> simp
  · rfl

theorem declaration?_absorb (s : Sheet) (id other i : NodeId) :
    (s.absorb id other).declaration? i = s.declaration? i := by
  unfold absorb
  split
  · rw [declaration?_remove, declaration?, node?_setSelector, declaration?]
    by_cases hi : i = id
    · rw [if_pos hi]
      cases s.node? i with
      | none => rfl
      | some node => cases node <;> rfl
    · rw [if_neg hi]
  · rfl

/-- The group that takes another one in keeps their parent from losing its last child. -/
theorem Filled.mergeGroups (h : s.Filled) (hs : s.IsDocument) : s.mergeGroups.Filled := by
  refine hs.mergeGroups_induction h fun t id other hbeside ht group hgroup hsome hnil => ?_
  have hbelow : t.Below group root :=
    Relation.TransGen.mono (fun i up hup => parent?_absorb hup) _ _ hgroup
  rw [isSome_group?_absorb] at hsome
  rcases hbeside.children_absorb group with heq | ⟨-, heq⟩
  · exact ht group hbelow hsome (heq ▸ hnil)
  · rw [heq] at hnil
    have hforest := hbeside.isDocument.isForest
    have hother := (eq_or_mem_of_filter_ne_eq_nil hnil).resolve_left (ht group hbelow hsome)
    have hid : id ∈ t.children group := by
      refine hforest.mem_children_of_parent? ?_
      rw [← hbeside.parent, hforest.parent?_of_mem_children hother]
    have hkept : id ∈ (t.children group).filter (· ≠ other) :=
      List.mem_filter.2 ⟨hid, by simpa using hbeside.ne.symm⟩
    rw [hnil] at hkept
    cases hkept

/-- Joining groups completes no set of members, since no group gets new declarations. -/
theorem Incomplete.mergeGroups (h : s.Incomplete) (hs : s.IsDocument) :
    s.mergeGroups.Incomplete := by
  refine hs.mergeGroups_induction h fun t id other hbeside ht => ?_
  refine ht.of_declarationsIn (fun i up hup => parent?_absorb hup) fun group => ?_
  have hdeclaration : (t.absorb id other).declaration? = t.declaration? :=
    funext fun i => declaration?_absorb t id other i
  rw [declarationsIn, declarationsIn, hdeclaration]
  rcases hbeside.children_absorb group with heq | ⟨hgroup, heq⟩
  · rw [heq]
  · obtain ⟨g, hg⟩ := Option.isSome_iff_exists.1 hgroup
    have hnone : t.declaration? other = none := by
      rw [declaration?, group?_eq_some_iff.1 hg]
    rw [heq, List.filterMap_filter]
    refine List.filterMap_congr fun i _ => ?_
    by_cases hi : i = other <;> simp [hi, hnone]

/-- Taking out groups without content completes no set of members. -/
theorem Incomplete.pruneGroups (h : s.Incomplete) (hs : s.IsForest) : s.pruneGroups.Incomplete :=
  h.of_declarationsIn (fun _ _ => hs.prunes_pruneGroups.parent?_of) hs.declarationsIn_pruneGroups

theorem passIf_induction {motive : Sheet → Prop} {asked : Bool} {pass : Sheet → Sheet} (h : motive s)
    (hpass : asked = true → motive (pass s)) : motive (s.passIf asked pass) := by
  unfold passIf
  split
  · next hasked => exact hpass hasked
  · exact h

/-- The passes in their order: comments, capitals, hacks, declarations, groups without content,
equal groups. Each stands under its options, and only the one over declarations can fail. -/
theorem shorten_eq_ok {options : OptimizeOptions} (h : s.shorten read options = .ok t) :
    ∃ u, t = (u.passIf (options.optimize && options.removeEmpty) pruneGroups).passIf
        options.mergeGroups mergeGroups ∧
      let kept := ((s.passIf options.removeComments removeComments).passIf options.optimize
        lowerNames).passIf options.removeHacks removeHacks
      if options.optimize then kept.optimizeDeclarations read = .ok u else kept = u := by
  unfold shorten at h
  dsimp only at h ⊢
  split at h
  · next hoptimize =>
    generalize hout : optimizeDeclarations read _ = out at h
    cases out with
    | error e => cases h
    | ok u =>
      cases h
      exact ⟨u, rfl, by rw [if_pos hoptimize]⟩
  · next hoptimize =>
    cases h
    exact ⟨_, rfl, if_neg hoptimize ▸ rfl⟩

/-- What the passes leave behind. -/
structure Tidy (options : OptimizeOptions) (s : Sheet) : Prop where
  comment : options.removeComments = true → s.Everywhere Node.NoComment
  name : options.optimize = true → s.Everywhere Node.Lowered
  shorthand : options.optimize = true → s.Incomplete
  content : options.optimize = true → options.removeEmpty = true → s.Filled

/-- What holds of a document and is kept by each pass holds of what the passes make of it. A pass
that is not asked for changes nothing, so it is not told which passes run. -/
theorem IsDocument.shorten_induction {options : OptimizeOptions} {motive : Sheet → Prop}
    (hs : s.IsDocument) (ht : s.shorten read options = .ok t) (h : motive s)
    (hremove : ∀ v ids, motive v → motive (v.removeAll ids))
    (hlower : ∀ v, motive v → motive v.lowerNames)
    (hvisit : ∀ v w, motive v → v.optimizeDeclarations read = .ok w → motive w)
    (hprune : ∀ v, motive v → motive v.pruneGroups)
    (hmerge : ∀ v, v.IsDocument → motive v → motive v.mergeGroups) :
    t.IsDocument ∧ motive t := by
  obtain ⟨u, rfl, hu⟩ := shorten_eq_ok ht
  have hcommented := hs.passIf hs.removeComments options.removeComments
  have hnamed := hcommented.passIf hcommented.lowerNames options.optimize
  have hkept := hnamed.passIf hnamed.removeHacks options.removeHacks
  have hkept' : motive (Sheet.passIf options.removeHacks Sheet.removeHacks _) :=
    have hcommented' : motive (s.passIf options.removeComments Sheet.removeComments) :=
      passIf_induction h fun _ => hremove _ _ h
    have hnamed' : motive (Sheet.passIf options.optimize Sheet.lowerNames _) :=
      passIf_induction hcommented' fun _ => hlower _ hcommented'
    passIf_induction hnamed' fun _ => hremove _ _ hnamed'
  dsimp only at hu
  have hu' : u.IsDocument ∧ motive u := by
    split at hu
    · exact ⟨hkept.optimizeDeclarations hu, hvisit _ _ hkept' hu⟩
    · exact hu ▸ ⟨hkept, hkept'⟩
  have hpruned := hu'.1.passIf hu'.1.pruneGroups (options.optimize && options.removeEmpty)
  have hpruned' : motive (u.passIf (options.optimize && options.removeEmpty) Sheet.pruneGroups) :=
    passIf_induction hu'.2 fun _ => hprune _ hu'.2
  exact ⟨hpruned.passIf hpruned.mergeGroups options.mergeGroups,
    passIf_induction hpruned' fun _ => hmerge _ hpruned hpruned'⟩

theorem IsDocument.shorten {options : OptimizeOptions} (hs : s.IsDocument)
    (h : s.shorten read options = .ok t) : t.IsDocument :=
  (hs.shorten_induction (motive := fun _ => True) h trivial (fun _ _ _ => trivial)
    (fun _ _ => trivial) (fun _ _ _ _ => trivial) (fun _ _ => trivial) fun _ _ _ => trivial).1

/-- The passes leave no comment, no name with capitals, no set of members that could be a shorthand
and no group without content, if they are asked for. What a later pass does cannot undo what an
earlier one did. -/
theorem IsDocument.tidy_shorten {options : OptimizeOptions} (hs : s.IsDocument)
    (h : s.shorten read options = .ok t) : t.Tidy options := by
  obtain ⟨u, rfl, hu⟩ := shorten_eq_ok h
  have hcommented := hs.passIf hs.removeComments options.removeComments
  have hnamed := hcommented.passIf hcommented.lowerNames options.optimize
  have hkept := hnamed.passIf hnamed.removeHacks options.removeHacks
  dsimp only at hu
  have hdocument : u.IsDocument := by
    split at hu
    · exact hkept.optimizeDeclarations hu
    · exact hu ▸ hkept
  have hpruned := hdocument.passIf hdocument.pruneGroups (options.optimize && options.removeEmpty)
  -- What holds of the nodes before the visits and regards neither values nor groups stays.
  have hlater {P : Node → Prop} (hgroup : ∀ g, P (.group g))
      (hvalue : ∀ d value, P (.declaration d) → P (.declaration { d with value }))
      (hshorthand : ∀ shorthand ∈ Shorthand.all, ∀ value, P (.declaration ⟨shorthand.name, value⟩))
      (hP : ((s.passIf options.removeComments Sheet.removeComments).passIf options.optimize
        Sheet.lowerNames).Everywhere P) :
      ((u.passIf (options.optimize && options.removeEmpty) Sheet.pruneGroups).passIf
        options.mergeGroups Sheet.mergeGroups).Everywhere P := by
    have hP : (Sheet.passIf options.removeHacks Sheet.removeHacks _).Everywhere P :=
      passIf_induction hP fun _ => hP.removeAll hgroup _
    have hPu : u.Everywhere P := by
      split at hu
      · exact hP.optimizeDeclarations hgroup hvalue hshorthand hkept hu
      · exact hu ▸ hP
    have hPu : (Sheet.passIf (options.optimize && options.removeEmpty) Sheet.pruneGroups u).Everywhere P :=
      passIf_induction hPu fun _ => hPu.pruneGroups hgroup
    exact passIf_induction hPu fun _ => hPu.mergeGroups hgroup hpruned
  refine ⟨fun hasked => ?_, fun hasked => ?_, fun hasked => ?_, fun hasked hempty => ?_⟩
  · refine hlater (fun g leaf heq => by cases heq) (fun d value _ leaf heq => by cases heq)
      (fun shorthand _ value leaf heq => by cases heq) ?_
    have hcomment := hs.isForest.everywhere_removeComments
    rw [show s.passIf options.removeComments Sheet.removeComments = s.removeComments from if_pos hasked]
    refine passIf_induction hcomment fun _ => ?_
    exact List.foldlRecOn (motive := Everywhere Node.NoComment) _ _ hcomment fun v hv id _ =>
      hv.modifyDeclaration fun d _ leaf heq => by cases heq
  · refine hlater (fun g d heq => by cases heq) (fun d value hd e heq => ?_)
      (fun shorthand hshorthand value d heq => ?_) ?_
    · cases heq
      exact hd d rfl
    · cases heq
      exact Shorthand.lowercase_name hshorthand
    · rw [show Sheet.passIf options.optimize _ _ = Sheet.lowerNames _ from if_pos hasked]
      exact hcommented.isForest.everywhere_lowerNames
  · rw [if_pos hasked] at hu
    have hincomplete := hkept.isForest.incomplete_optimizeDeclarations hu
    have hincomplete : (Sheet.passIf (options.optimize && options.removeEmpty) _ u).Incomplete :=
      passIf_induction hincomplete fun _ => hincomplete.pruneGroups hdocument.isForest
    exact passIf_induction hincomplete fun _ => hincomplete.mergeGroups hpruned
  · rw [show Sheet.passIf (options.optimize && options.removeEmpty) _ _ = Sheet.pruneGroups _ from
      if_pos (by rw [hasked, hempty]; rfl)] at hpruned ⊢
    have hfilled := hdocument.isForest.filled_pruneGroups
    exact passIf_induction hfilled fun _ => hfilled.mergeGroups hpruned

end Sheetsmith.Sheet
