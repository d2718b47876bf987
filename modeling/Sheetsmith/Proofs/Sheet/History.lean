import Sheetsmith.Proofs.Sheet.Ancestry
import Sheetsmith.Proofs.Sheet.Copying
import Sheetsmith.Proofs.Sheet.ReadBack
import Sheetsmith.Proofs.Sheet.Running

namespace Sheetsmith

open Sheet Edit

/-- One change that can be asked of a sheet. -/
inductive Step where
  | createGroup (selector : Option String)
  | createDeclaration (name value : String)
  | createLeaf (kind : LeafKind) (text : String)
  | appendChild (group child : NodeId)
  | insertAfter (id new : NodeId)
  | insertDeclarationAfter (id : NodeId) (name value : String)
  | remove (id : NodeId)
  | copySubtree (id : NodeId)
  | setSelector (id : NodeId) (selector : Option String)
  | setSelectors (id : NodeId) (parts : List String)
  | modifyDeclaration (id : NodeId) (f : Declaration → Declaration)

namespace Step

/-- What a step does to a sheet. -/
def edit : Step → Edit Unit
  | .createGroup selector => do let _ ← Edit.create (.group ⟨selector, []⟩)
  | .createDeclaration name value => do let _ ← Edit.create (.declaration ⟨name, value⟩)
  | .createLeaf kind text => do let _ ← Edit.create (.leaf ⟨kind, text⟩)
  | .appendChild group child => Edit.attempt (·.appendChild group child)
  | .insertAfter id new => Edit.attempt (·.insertAfter id new)
  | .insertDeclarationAfter id name value => do
    let _ ← Edit.insertDeclarationAfter id name value
  | .remove id => Edit.change (·.remove id)
  | .copySubtree id => Edit.change fun s => (s.copySubtree id).2
  | .setSelector id selector => Edit.change (·.setSelector id selector)
  | .setSelectors id parts => Edit.change (·.setSelectors id parts)
  | .modifyDeclaration id f => Edit.change (·.modifyDeclaration id f)

/-- A step puts no node into itself or into something below it. -/
def Safe (step : Step) (s : Sheet) : Prop :=
  ∀ child group, s.parent? child = none → (step.edit.final s).parent? child = some group →
    group ≠ child ∧ ¬ s.Below group child

/-- What a step leaves when it fails: the sheet as it was, but for a declaration that
was created before there turned out to be no place for it. -/
def remains (s : Sheet) : Step → Sheet
  | .insertDeclarationAfter _ name value => (s.create (.declaration ⟨name, value⟩)).2
  | _ => s

end Step

namespace Sheet

/-- The sheet after a list of steps. Where a step fails, the next one goes on with
what it has left. -/
def after (s : Sheet) (steps : List Step) : Sheet :=
  steps.foldl (fun s step => step.edit.final s) s

/-- Every step of a list is safe when its turn comes. -/
def SafeSteps : Sheet → List Step → Prop
  | _, [] => True
  | s, step :: steps => step.Safe s ∧ (step.edit.final s).SafeSteps steps

/-- A node that may be put into a group. -/
structure Fits (s : Sheet) (group child : NodeId) : Prop where
  lt_size : child < s.size
  ne_root : child ≠ root
  top : s.parent? child = none
  isGroup : (s.group? group).isSome

section

variable {s t : Sheet} {group child id new : NodeId}

/-- The two checks that the program makes before it attaches a node say that the node and the group
fit. They do not see whether the group lies below the node. -/
theorem fits_of_checks (hchild : s.checkDetached child = .ok ())
    (hgroup : s.checkGroup group = .ok ()) : s.Fits group child := by
  have hisGroup : (s.group? group).isSome := by
    rw [checkGroup] at hgroup
    split at hgroup
    · assumption
    · cases hgroup
  rw [checkDetached] at hchild
  cases hslot : s.slots[child]? with
  | none =>
    rw [hslot] at hchild
    cases hchild
  | some slot =>
    rw [hslot] at hchild
    dsimp only at hchild
    split at hchild
    · cases hchild
    · next hfree =>
      rw [Bool.or_eq_true, not_or, beq_iff_eq, Option.not_isSome_iff_eq_none] at hfree
      refine ⟨(Array.getElem?_eq_some_iff.1 hslot).1, hfree.2, ?_, hisGroup⟩
      rw [parent?, hslot, Option.bind_some, hfree.1]

/-- Appending a child succeeds only where it fits, and then it is a plain link at the end. -/
theorem appendChild_eq_ok (h : s.appendChild group child = .ok t) :
    s.Fits group child ∧ t = s.link group child (· ++ [child]) := by
  rw [appendChild] at h
  cases hchild : s.checkDetached child with
  | error e =>
    rw [hchild] at h
    cases h
  | ok =>
    cases hgroup : s.checkGroup group with
    | error e =>
      rw [hchild, hgroup] at h
      cases h
    | ok =>
      rw [hchild, hgroup] at h
      cases h
      exact ⟨fits_of_checks hchild hgroup, rfl⟩

/-- Inserting behind a node succeeds only where that node has a parent into which the new one fits.
-/
theorem insertAfter_eq_ok (h : s.insertAfter id new = .ok t) :
    ∃ parent, s.Fits parent new ∧ t = s.link parent new (placeAfter id new) := by
  rw [insertAfter] at h
  cases hparent : s.parent? id with
  | none =>
    rw [hparent] at h
    cases h
  | some parent =>
    rw [hparent] at h
    dsimp only at h
    cases hchild : s.checkDetached new with
    | error e =>
      rw [hchild] at h
      cases h
    | ok =>
      cases hgroup : s.checkGroup parent with
      | error e =>
        rw [hchild, hgroup] at h
        cases h
      | ok =>
        rw [hchild, hgroup] at h
        cases h
        exact ⟨parent, fits_of_checks hchild hgroup, rfl⟩

/-- Attaching keeps a forest as long as no node comes to lie below itself. The condition is the one
on steps, put in terms of the parent links before and after, so that a step that attaches nothing
meets it at once. -/
theorem IsForest.link_of_fits (hs : s.IsForest) (hfits : s.Fits group child)
    {place : List NodeId → List NodeId} (hplace : Places child place)
    (hsafe : ∀ child' group', s.parent? child' = none →
      (s.link group child place).parent? child' = some group' →
      group' ≠ child' ∧ ¬ s.Below group' child') :
    (s.link group child place).IsForest := by
  have hparent : (s.link group child place).parent? child = some group := by
    rw [parent?_link hfits.lt_size, if_pos rfl]
  obtain ⟨hne, hbelow⟩ := hsafe child group hfits.top hparent
  exact hs.link hfits.isGroup hfits.lt_size hfits.ne_root hfits.top hne hbelow hplace

/-- The copy of a node that does not exist is none: the sheet stays as it was. -/
theorem copySubtree_of_node?_eq_none (h : s.node? id = none) : s.copySubtree id = (s.size, s) := by
  have hnil : s.children id = [] := children_eq_nil_of_group? (by rw [group?, h])
  rw [copySubtree, copyNode, h, hnil]
  cases s.size <;> rfl

/-- A copy keeps a forest, whichever node is copied. It stands by itself until it is attached. -/
theorem IsForest.isForest_copySubtree (hs : s.IsForest) (id : NodeId) :
    (s.copySubtree id).2.IsForest := by
  cases hnode : s.node? id with
  | none =>
    rw [copySubtree_of_node?_eq_none hnode]
    exact hs
  | some node => exact (hs.copySubtree hnode).2.isForest

end

end Sheet

namespace Step

/-- A safe step keeps a forest, whether it fails or not. Most steps are safe anyhow; only attaching
a node can close a loop. -/
theorem isForest_final {s : Sheet} (hs : s.IsForest) {step : Step} (hsafe : step.Safe s) :
    (step.edit.final s).IsForest := by
  cases step with
  | createGroup selector => exact hs.create (by rintro g ⟨⟩; rfl)
  | createDeclaration name value => exact hs.create (by rintro g ⟨⟩)
  | createLeaf kind text => exact hs.create (by rintro g ⟨⟩)
  | appendChild group child =>
    rw [Safe] at hsafe
    simp only [edit, final, run_attempt] at hsafe ⊢
    cases happend : s.appendChild group child with
    | error e => exact hs
    | ok t =>
      obtain ⟨hfits, rfl⟩ := appendChild_eq_ok happend
      rw [happend] at hsafe
      exact hs.link_of_fits hfits (places_concat child) hsafe
  | insertAfter id new =>
    rw [Safe] at hsafe
    simp only [edit, final, run_attempt] at hsafe ⊢
    cases hinsert : s.insertAfter id new with
    | error e => exact hs
    | ok t =>
      obtain ⟨parent, hfits, rfl⟩ := insertAfter_eq_ok hinsert
      rw [hinsert] at hsafe
      exact hs.link_of_fits hfits (places_placeAfter id new) hsafe
  | insertDeclarationAfter id name value =>
    -- A declaration is new and has nothing below it, so it may go anywhere.
    have hinsert : Maintains IsForest (Edit.insertDeclarationAfter id name value) :=
      fun t ht => (final_insertDeclarationAfter ht (Nat.le_refl _) id name value).1
    exact hinsert.bind (fun _ => maintains_pure ()) s hs
  | remove id => exact hs.remove id
  | copySubtree id => exact hs.isForest_copySubtree id
  | setSelector id selector => exact hs.setSelector id selector
  | setSelectors id parts => exact hs.setSelector id _
  | modifyDeclaration id f => exact hs.modifyDeclaration id f

/-- A change of the whole sheet that fails has changed nothing. -/
theorem eq_of_attempt {s t : Sheet} {f : Sheet → Except SheetError Sheet} {e : SheetError}
    (h : (attempt f).run.run s = (.error e, t)) : t = s := by
  rw [run_attempt] at h
  cases hf : f s with
  | ok u =>
    rw [hf] at h
    cases h
  | error e' =>
    rw [hf] at h
    cases h
    rfl

/-- A step that fails changes nothing, but for the declaration it may have created. This holds in
any sheet, forest or not. -/
theorem eq_remains {s t : Sheet} {step : Step} {e : SheetError}
    (h : step.edit.run.run s = (.error e, t)) : t = step.remains s := by
  cases step with
  | appendChild group child => exact eq_of_attempt h
  | insertAfter id new => exact eq_of_attempt h
  | insertDeclarationAfter id name value =>
    have hcreate : (Edit.create (.declaration ⟨name, value⟩)).run.run s =
        (.ok s.size, (s.create (.declaration ⟨name, value⟩)).2) := rfl
    rw [edit, Edit.insertDeclarationAfter, run_bind, run_bind, hcreate] at h
    dsimp only at h
    rw [run_bind] at h
    cases hrun : (attempt fun u => u.insertAfter id s.size).run.run
        (s.create (.declaration ⟨name, value⟩)).2 with
    | mk answer u =>
      rw [hrun] at h
      cases answer with
      | ok => cases h
      | error e' =>
        obtain rfl := eq_of_attempt hrun
        cases h
        rfl
  | _ => cases h

/-- Whether a step puts no node into itself or into something below it, found out by
looking at all nodes. -/
def isSafe (step : Step) (s : Sheet) : Bool :=
  (List.range (step.edit.final s).size).all fun child =>
    (s.parent? child).isSome || ((step.edit.final s).parent? child).all fun group =>
      group != child && !(s.descendants child).contains group

/-- The test for safety looks at the nodes of the sheet after the step only. In a forest this is
enough, since a number that no node has gets no parent. -/
theorem safe_of_isSafe {s : Sheet} (hs : s.IsForest) {step : Step} (h : step.isSafe s = true) :
    step.Safe s := by
  intro child group htop hparent
  have hcheck := List.all_eq_true.1 h child (List.mem_range.2 (lt_size_of_parent? hparent))
  rw [htop, hparent] at hcheck
  simp only [Option.isSome_none, Bool.false_or, Option.all_some, Bool.and_eq_true, bne_iff_ne,
    Bool.not_eq_true', List.contains_eq_mem, decide_eq_false_iff_not] at hcheck
  exact ⟨hcheck.1, fun hbelow => hcheck.2 (hs.mem_descendants_iff.2 hbelow)⟩

end Step

namespace Sheet

/-- A run of safe steps keeps a forest. Each step has to be safe when its turn comes, in the sheet
that the steps before it have left. -/
theorem IsForest.after {s : Sheet} (hs : s.IsForest) {steps : List Step}
    (hsafe : s.SafeSteps steps) : (s.after steps).IsForest := by
  induction steps generalizing s with
  | nil => exact hs
  | cons step steps ih => exact ih (Step.isForest_final hs hsafe.1) hsafe.2

/-- Whether every step of a list is safe when its turn comes. -/
def areSafe : Sheet → List Step → Bool
  | _, [] => true
  | s, step :: steps => step.isSafe s && (step.edit.final s).areSafe steps

/-- The computed test for a run of steps says that they are safe, if the run starts at a forest. -/
theorem IsForest.safeSteps_of_areSafe {s : Sheet} (hs : s.IsForest) {steps : List Step}
    (h : s.areSafe steps = true) : s.SafeSteps steps := by
  induction steps generalizing s with
  | nil => trivial
  | cons step steps ih =>
    rw [areSafe, Bool.and_eq_true] at h
    have hsafe := Step.safe_of_isSafe hs h.1
    exact ⟨hsafe, ih (Step.isForest_final hs hsafe) h.2⟩

/-- Whatever steps are taken from the empty sheet or from a sheet that was read, as long as none of
them puts a node into itself or into something below it: parent links and child lists agree, nobody
is a child twice, and every way up ends. A step that fails there leaves the sheet as it was, but for
the declaration it may have created. Steps may name nodes that do not exist, and may fail in the
middle of the list. -/
theorem isForest_after {s : Sheet} (hstart : s = empty ∨ ∃ trim text, s = parse trim text)
    {steps : List Step} (hsafe : s.SafeSteps steps) :
    let t := s.after steps
    t.IsForest ∧ (∀ id, ∃ above, t.Climbs (t.parent? id) above) ∧
      ∀ (step : Step) (e : SheetError) (u : Sheet),
        step.edit.run.run t = (.error e, u) → u = step.remains t := by
  have hs : s.IsForest := by
    rcases hstart with rfl | ⟨trim, text, rfl⟩
    · exact isForest_empty
    · exact isForest_parse trim text
  have hforest := hs.after hsafe
  exact ⟨hforest, hforest.exists_climbs, fun _ _ _ h => Step.eq_remains h⟩

/-- A block is taken out, gets a declaration while it is detached, and goes into
another block; a declaration finds no place beside the root. -/
def movingSteps : List Step :=
  [.remove 1, .createDeclaration "e" "f", .appendChild 1 5, .insertDeclarationAfter 0 "g" "h",
    .appendChild 3 1, .copySubtree 3, .appendChild 3 1]

theorem isForest_after_movingSteps :
    let s := parse true "a\x7bb:c\x7dd\x7be:f\x7d"
    let t := s.after movingSteps
    t.children 3 = [4, 1] ∧ t.children 1 = [2, 5] ∧ t.parent? 6 = none ∧
      t.IsForest ∧ (∀ id, ∃ above, t.Climbs (t.parent? id) above) ∧
      ∀ (step : Step) (e : SheetError) (u : Sheet),
        step.edit.run.run t = (.error e, u) → u = step.remains t := by
  refine ⟨by decide +kernel, by decide +kernel, by decide +kernel,
    isForest_after (.inr ⟨true, _, rfl⟩) ?_⟩
  exact (isForest_parse _ _).safeSteps_of_areSafe (by decide +kernel)

end Sheet

end Sheetsmith
