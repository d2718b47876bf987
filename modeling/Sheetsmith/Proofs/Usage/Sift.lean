import Mathlib.Data.List.Infix
import Sheetsmith.Proofs.Sheet.Ancestry
import Sheetsmith.Proofs.Sheet.Row
import Sheetsmith.Proofs.Text.Occurs
import Sheetsmith.Proofs.Usage.Counts

namespace Sheetsmith

namespace Usage

/-- Whether a header opens keyframes, so that nothing inside is looked at. -/
def opensKeyframes : Option String → Bool
  | some selector =>
    selector.toList.head? == some '@' &&
      decide ("keyframes".toList <:+: Text.fold selector.toList)
  | none => false

/-- A selector that is an at-rule: its first character, blanks apart, is `@`. -/
def isAtRule (selector : String) : Bool :=
  (Text.trimStart selector.toList).head? == some '@'

/-- What becomes of a group. -/
structure Verdict where
  /-- The header it has from then on, unless it is dropped. -/
  header : Option (Option String)
  /-- The parts of its selector that stay. -/
  kept : List String
  /-- The parts of its selector that are taken out. -/
  removed : List String

/-- Looks at the header of a group. Without a selector, as an at-rule or inside keyframes it
stays as it is; any other keeps the parts of its selector whose names are all known. -/
def judge (tokens : List String) (sheltered : Bool) : Option String → Verdict
  | none => ⟨some none, [], []⟩
  | some selector =>
    if sheltered || isAtRule selector then ⟨some (some selector), [], []⟩
    else
      let parts := Sheet.selectorParts selector
      let kept := parts.filter (keeps tokens)
      ⟨if kept.isEmpty then none else some (some (", ".intercalate kept)), kept,
        parts.filter fun part => !keeps tokens part⟩

/-- What is left of a row, and the parts of selectors that stayed and that were taken out. -/
structure Sifted where
  row : Row
  kept : List String
  removed : List String

/-- Takes the unused selectors out of a row, from the top down. A group that is dropped takes all
that is below it along, unseen. -/
def sift (tokens : List String) : (sheltered : Bool) → Row → Sifted
  | _, .nil => ⟨.nil, [], []⟩
  | sheltered, .item id node rest =>
    let behind := sift tokens sheltered rest
    ⟨.item id node behind.row, behind.kept, behind.removed⟩
  | sheltered, .group id selector inner rest =>
    let verdict := judge tokens sheltered selector
    let behind := sift tokens sheltered rest
    match verdict.header with
    | none => ⟨behind.row, behind.kept, verdict.removed ++ behind.removed⟩
    | some header =>
      let within := sift tokens (sheltered || opensKeyframes header) inner
      ⟨.group id header within.row behind.row, verdict.kept ++ (within.kept ++ behind.kept),
        verdict.removed ++ (within.removed ++ behind.removed)⟩

/-- A group that is dropped keeps no part. The uses of its parts are therefore not counted. -/
theorem kept_judge_eq_nil {tokens : List String} {sheltered : Bool} {selector : Option String}
    (h : (judge tokens sheltered selector).header = none) :
    (judge tokens sheltered selector).kept = [] := by
  cases selector with
  | none => cases h
  | some selector =>
    rw [judge] at h ⊢
    split at h
    · cases h
    · next hlooked =>
      rw [if_neg hlooked]
      dsimp only at h ⊢
      split at h
      · next hempty => exact List.isEmpty_iff.1 hempty
      · cases h

/-- Nothing is left of a row that was not there before. -/
theorem numbers_sift_subset (tokens : List String) (sheltered : Bool) (row : Row) :
    (sift tokens sheltered row).row.numbers ⊆ row.numbers := by
  induction row generalizing sheltered with
  | nil => exact List.Subset.refl _
  | item id node rest ih => exact List.cons_subset_cons id (ih sheltered)
  | group id selector inner rest ihinner ihrest =>
    rw [sift]
    dsimp only
    cases (judge tokens sheltered selector).header with
    | none => exact List.subset_append_of_subset_right _ (ihrest sheltered)
    | some header =>
      refine List.append_subset.2 ⟨?_, List.subset_append_of_subset_right _ (ihrest sheltered)⟩
      exact List.subset_append_of_subset_left _ (List.cons_subset_cons id (ihinner _))

end Usage

namespace Sheet

open Usage

/-- Whether a group opens keyframes depends on its header alone. -/
theorem isKeyframesRule_eq (s : Sheet) (id : NodeId) :
    s.isKeyframesRule id = opensKeyframes (s.selector? id) := by
  rw [isKeyframesRule]
  cases s.selector? id with
  | none => rfl
  | some selector =>
    have hword : "keyframes".toList ≠ [] := by decide
    have hoccurs : Text.occurs (Text.literal "keyframes".toList) (Text.fold selector.toList) =
        decide ("keyframes".toList <:+: Text.fold selector.toList) := by
      rw [Bool.eq_iff_iff, decide_eq_true_iff]
      exact ⟨Text.isInfix_of_occurs_literal, Text.occurs_literal hword⟩
    dsimp only
    rw [hoccurs, opensKeyframes]

/-- A group is looked at when it has a header, is no at-rule, and has no keyframes above it. The
ancestors are those in the sheet as it stands, not in the one that was parsed. -/
theorem isCleanable_eq (s : Sheet) (id : NodeId) :
    s.isCleanable id = ((s.selector? id).map isAtRule == some false &&
      !(s.ancestors id).any fun i => opensKeyframes (s.selector? i)) := by
  have hkeyframes : s.isKeyframesRule = fun i => opensKeyframes (s.selector? i) :=
    funext s.isKeyframesRule_eq
  rw [isCleanable, hkeyframes]
  cases s.selector? id with
  | none => rfl
  | some selector =>
    dsimp only [Option.map_some]
    rw [isAtRule, bne]
    cases (Text.trimStart selector.toList).head? == some '@' <;> rfl

theorem isCleanable_of_selector?_eq_none {s : Sheet} {id : NodeId} (h : s.selector? id = none) :
    s.isCleanable id = false := by
  rw [isCleanable, h]

theorem cleanStep_of_isCleanable_eq_false {s : Sheet} {id : NodeId} (h : s.isCleanable id = false)
    (table : Table) (findings : Findings) : cleanStep table (s, findings) id = (s, findings) := by
  rw [cleanStep, h, Bool.and_false, if_neg Bool.false_ne_true]

theorem cleanStep_of_isAttached_eq_false {s : Sheet} {id : NodeId} (h : s.isAttached id = false)
    (table : Table) (findings : Findings) : cleanStep table (s, findings) id = (s, findings) := by
  rw [cleanStep, h, Bool.false_and, if_neg Bool.false_ne_true]

/-- A look at a group of the tree that is to be cleaned: its parts are noted, and then it is
cleaned. -/
theorem cleanStep_of_isCleanable {s : Sheet} {id : NodeId} (hattached : s.isAttached id = true)
    (hcleanable : s.isCleanable id = true) (table : Table) (findings : Findings) :
    cleanStep table (s, findings) id =
      (s.cleanGroup table id, (s.selectors id).foldl (Findings.note table) findings) := by
  rw [cleanStep, hattached, hcleanable, Bool.and_true, if_pos rfl]

/-- What taking groups out and giving them headers keeps holds of a cleaned sheet. The groups that
get headers are among those that are listed before cleaning. -/
theorem cleanWith_induction {P : Sheet → Prop} {s : Sheet} (hs : P s)
    (hremove : ∀ t id, P t → P (t.remove id))
    (hselector : ∀ t, ∀ id ∈ s.groups root, ∀ header, P t → P (t.setSelector id header))
    (table : Table) : P (s.cleanWith table).1 := by
  refine (s.groups root).foldlRecOn (motive := fun state : Sheet × Findings => P state.1) _ hs ?_
  rintro ⟨t, findings⟩ ht id hid
  unfold cleanStep
  dsimp only
  split
  · unfold cleanGroup
    dsimp only
    split
    · exact hremove t id ht
    · exact hselector t id hid _ ht
  · exact ht

/-- A group of the tree: the way from it up to the root, and whether a header on this way opens
keyframes. -/
structure Reaches (s : Sheet) (id : NodeId) (path : List NodeId) (sheltered : Bool) : Prop where
  climbs : s.Climbs (some id) path
  root_mem : root ∈ path
  sheltered_eq : (path.any fun i => opensKeyframes (s.selector? i)) = sheltered

/-- A chain upward stays one while its nodes keep their parents. The two sheets may differ in
everything else. -/
theorem Climbs.congr {s t : Sheet} {start : Option NodeId} {ids : List NodeId}
    (h : s.Climbs start ids) (hparent : ∀ id ∈ ids, t.parent? id = s.parent? id) :
    t.Climbs start ids := by
  induction h with
  | top => exact .top
  | @step id ids hrest ih =>
    refine .step ?_
    rw [hparent id List.mem_cons_self]
    exact ih fun i hi => hparent i (List.mem_cons_of_mem _ hi)

namespace Reaches

variable {s t : Sheet} {id child : NodeId} {path : List NodeId} {sheltered : Bool}

theorem self_mem (h : s.Reaches id path sheltered) : id ∈ path := by
  cases h.climbs with
  | step hrest => exact List.mem_cons_self

/-- The way up to the root stays as it is while its groups keep their parents and headers. -/
theorem congr (h : s.Reaches id path sheltered) (hparent : ∀ i ∈ path, t.parent? i = s.parent? i)
    (hselector : ∀ i ∈ path, t.selector? i = s.selector? i) : t.Reaches id path sheltered := by
  refine ⟨h.climbs.congr hparent, h.root_mem, ?_⟩
  rw [← h.sheltered_eq, Bool.eq_iff_iff, List.any_eq_true, List.any_eq_true]
  refine exists_congr fun i => and_congr_right fun hi => ?_
  rw [hselector i hi]

/-- The way from a child goes on over its parent, and the child's own header may shelter what is
below. -/
theorem descend (h : s.Reaches id path sheltered) (hparent : s.parent? child = some id) :
    s.Reaches child (child :: path) (sheltered || opensKeyframes (s.selector? child)) := by
  refine ⟨.step (hparent ▸ h.climbs), List.mem_cons_of_mem _ h.root_mem, ?_⟩
  rw [List.any_cons, h.sheltered_eq, Bool.or_comm]

variable (hs : s.IsForest) (h : s.Reaches id path sheltered) (hparent : s.parent? child = some id)
include hs h hparent

/-- What the program finds above a child of the group is the way up. -/
theorem ancestors_eq : s.ancestors child = path := by
  have hclimbs := hs.climbs_ancestors child
  rw [hparent] at hclimbs
  exact hclimbs.unique h.climbs

/-- A child of a group of the tree is in the tree. -/
theorem isAttached_child : s.isAttached child = true := by
  rw [isAttached, isWithin, h.ancestors_eq hs hparent, Bool.or_eq_true]
  exact .inr (List.contains_iff_mem.2 h.root_mem)

/-- Whether a child is looked at depends on its own header and on whether a header above it opens
keyframes. -/
theorem isCleanable_child {selector : String} (hselector : s.selector? child = some selector) :
    s.isCleanable child = !(sheltered || isAtRule selector) := by
  rw [isCleanable_eq, h.ancestors_eq hs hparent, h.sheltered_eq, hselector, Option.map_some]
  cases isAtRule selector <;> cases sheltered <;> rfl

/-- The look at one group follows the verdict on its header. This is the one place where the program
and the sifting meet; all that is asked of the table is that it tallies the names. -/
theorem cleanStep_eq {table : Table} {tokens : List String} (htable : table.Tallies tokens)
    {g : Group} (hnode : s.node? child = some (.group g)) (findings : Findings) :
    let verdict := judge tokens sheltered g.selector
    cleanStep table (s, findings) child =
      (match verdict.header with
        | none => s.remove child
        | some header => s.setSelector child header,
        findings.extend tokens verdict.kept verdict.removed) := by
  have hselector := selector?_of_node? hnode
  have hsame := setSelector_of_node? hnode
  cases hcase : g.selector with
  | none =>
    rw [hcase] at hselector hsame
    rw [cleanStep_of_isCleanable_eq_false (isCleanable_of_selector?_eq_none hselector), judge]
    dsimp only
    rw [hsame, findings.extend_nil]
  | some selector =>
    rw [hcase] at hselector hsame
    have hcleanable := h.isCleanable_child hs hparent hselector
    rw [judge]
    by_cases hspared : (sheltered || isAtRule selector) = true
    · rw [hspared] at hcleanable
      rw [cleanStep_of_isCleanable_eq_false hcleanable, if_pos hspared]
      dsimp only
      rw [hsame, findings.extend_nil]
    · rw [Bool.not_eq_true] at hspared
      rw [hspared] at hcleanable
      have hparts : s.selectors child = selectorParts selector := by rw [selectors, hselector]
      have hused : isUsed table = keeps tokens := funext htable.isUsed_eq
      rw [cleanStep_of_isCleanable (h.isAttached_child hs hparent) hcleanable, cleanGroup, hparts,
        foldl_note htable, hused, hspared, if_neg Bool.false_ne_true]
      dsimp only
      split <;> rfl

end Reaches

end Sheet

end Sheetsmith
