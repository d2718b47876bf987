import Sheetsmith.Proofs.Sheet.Preorder
import Sheetsmith.Sheet.Render

namespace Sheetsmith

/-- What can be seen of a node and all that is below it: the content of leaves
and declarations, and the selector parts and children of groups. Numbers and the
blanks around the parts of a selector are left out. -/
inductive Outline where
  | leaf (leaf : Leaf)
  | declaration (declaration : Declaration)
  | group (selectors : List String) (children : List Outline)

mutual

/-- The text of an outline. In compressed layout the last declaration of a group
has no semicolon. -/
def Outline.text (layout : Layout) (last : Bool) : Outline → String
  | .leaf l => l.text
  | .declaration d =>
    d.name ++ ":" ++ d.value ++ if layout = .compressed && last then "" else ";"
  | .group selectors children =>
    if selectors.isEmpty then Outline.texts layout layout.rootGap children
    else
      layout.comma.intercalate selectors ++ layout.blockOpen ++
        Outline.texts layout layout.blockGap children ++ layout.blockClose

/-- The text of the children of a group, with a gap between them. -/
def Outline.texts (layout : Layout) (gap : String) : List Outline → String
  | [] => ""
  | o :: os =>
    o.text layout os.isEmpty ++ (if os.isEmpty then "" else gap) ++ Outline.texts layout gap os

end

namespace Sheet

/-- A list of nodes looks like a list of outlines. -/
inductive Shows (s : Sheet) : List NodeId → List Outline → Prop where
  | nil : Shows s [] []
  | leaf {id : NodeId} {ids : List NodeId} {leaf : Leaf} {os : List Outline}
      (hnode : s.node? id = some (.leaf leaf)) (hrest : Shows s ids os) :
      Shows s (id :: ids) (.leaf leaf :: os)
  | declaration {id : NodeId} {ids : List NodeId} {d : Declaration} {os : List Outline}
      (hnode : s.node? id = some (.declaration d)) (hrest : Shows s ids os) :
      Shows s (id :: ids) (.declaration d :: os)
  | group {id : NodeId} {ids : List NodeId} {inner os : List Outline}
      (hgroup : (s.group? id).isSome) (hinner : Shows s (s.children id) inner)
      (hrest : Shows s ids os) : Shows s (id :: ids) (.group (s.selectors id) inner :: os)

/-- Two sheets have the same tree below and with their roots: the same nesting and
order, the same kinds of nodes, names, values and texts, and the same selector
parts. -/
def SameTree (s t : Sheet) : Prop :=
  ∃ outline, s.Shows [root] [outline] ∧ t.Shows [root] [outline]

/-- Every group with its listing looks like something. Only the nodes of the listing have to exist.
-/
theorem Spans.exists_shows {s : Sheet} {ids all : List NodeId} (h : Spans s ids all)
    (hall : ∀ id ∈ all, id < s.size) : ∃ os, s.Shows ids os := by
  induction h with
  | nil => exact ⟨[], .nil⟩
  | @cons id ids below rest hbelow hrest ihbelow ihrest =>
    obtain ⟨inner, hinner⟩ := ihbelow fun i hi => hall i (by simp [hi])
    obtain ⟨os, hos⟩ := ihrest fun i hi => hall i (by simp [hi])
    obtain ⟨node, hnode⟩ := exists_node?_of_lt (hall id (by simp))
    cases node with
    | leaf leaf => exact ⟨_, .leaf hnode hos⟩
    | declaration d => exact ⟨_, .declaration hnode hos⟩
    | group g =>
      refine ⟨_, .group ?_ hinner hos⟩
      rw [group?_eq_some_iff.2 hnode]
      rfl

namespace IsForest

variable {s : Sheet} (hs : s.IsForest)
include hs

/-- In a forest the children of any group look like something, also those of a detached one. For a
node that is no group there is nothing to look at. -/
theorem exists_shows_children (id : NodeId) : ∃ os, s.Shows (s.children id) os :=
  (hs.spans_descendants id).exists_shows <|
    (hs.spans_descendants id).forall_mem (fun _ hi => hs.lt_size_of_mem_children hi)
      fun _ _ _ hchild => hs.lt_size_of_mem_children hchild

/-- What the root looks like is a group. -/
theorem exists_inner {outline : Outline} (h : s.Shows [root] [outline]) :
    ∃ inner, outline = .group (s.selectors root) inner ∧ s.Shows (s.children root) inner := by
  obtain ⟨g, hg⟩ := Option.isSome_iff_exists.1 hs.root_group
  have hnode := group?_eq_some_iff.1 hg
  cases h with
  | leaf hleaf => rw [hnode] at hleaf; cases hleaf
  | declaration hdeclaration => rw [hnode] at hdeclaration; cases hdeclaration
  | group hgroup hinner hrest => exact ⟨_, rfl, hinner⟩

/-- A child is the last one when nothing follows it. Nobody is a child twice in a forest, so its
place in the list is the only one. -/
theorem isLastChild_eq {parent id : NodeId} {front ids : List NodeId}
    (hchildren : s.children parent = front ++ id :: ids) : s.isLastChild id = ids.isEmpty := by
  have hmem : id ∈ s.children parent := by rw [hchildren]; simp
  have hnodup := hs.nodup_children parent
  rw [hchildren] at hnodup
  rw [isLastChild, family, hs.parent?_of_mem_children hmem]
  simp only [hchildren]
  cases ids with
  | nil => simp
  | cons next ids =>
    have hnotin : id ∉ next :: ids := (List.nodup_cons.1 (List.nodup_append.1 hnodup).2.1).1
    have hlast : (front ++ id :: next :: ids).getLast? = (next :: ids).getLast? := by
      simp [List.getLast?_append, List.getLast?_cons]
    rw [hlast, List.isEmpty_cons, beq_eq_false_iff_ne]
    intro heq
    exact hnotin (List.mem_of_getLast? heq)

end IsForest

/-- A gap stands between two children, and none behind the last one. The gap is the same between any
two of them. -/
theorem spaced_cons (gap : String) (id : NodeId) (ids : List NodeId) :
    spaced gap (id :: ids) =
      .node id :: ((if ids.isEmpty then [] else [.text gap]) ++ spaced gap ids) := by
  cases ids <;> rfl

theorem selectorParts_eq_nil_iff (selector : String) :
    selectorParts selector = [] ↔ selector.isEmpty = true := by
  rw [selectorParts]
  split
  · next h => simp [h]
  · next h =>
    constructor
    · intro hnil
      cases hlist : selector.toList with
      | nil => simp [hlist, Text.splitAtEach] at hnil
      | cons c cs =>
        rw [hlist, Text.splitAtEach] at hnil
        split at hnil
        · simp at hnil
        · split at hnil <;> simp at hnil
    · intro hempty
      exact absurd hempty h

/-- A group is written as the texts around it and its children. Without selector parts it is written
as the root is, by its children alone. -/
theorem expand_group {s : Sheet} (layout : Layout) {id : NodeId} (hgroup : (s.group? id).isSome) :
    s.expand layout id =
      if (s.selectors id).isEmpty then spaced layout.rootGap (s.children id)
      else .text (layout.comma.intercalate (s.selectors id) ++ layout.blockOpen) ::
        (spaced layout.blockGap (s.children id) ++ [.text layout.blockClose]) := by
  obtain ⟨g, hg⟩ := Option.isSome_iff_exists.1 hgroup
  have hnode := group?_eq_some_iff.1 hg
  rw [expand, hnode, selectors, selector?, hg, children_of_group? hg]
  cases hselector : g.selector with
  | none => simp [hselector]
  | some selector =>
    have hparts := selectorParts_eq_nil_iff selector
    by_cases hempty : selector.isEmpty = true
    · simp [hselector, hempty, hparts.2 hempty]
    · have hne : (selectorParts selector).isEmpty = false := by
        rw [List.isEmpty_eq_false_iff]
        exact fun hnil => hempty (hparts.1 hnil)
      simp [hselector, hempty, hne]

end Sheet

end Sheetsmith
