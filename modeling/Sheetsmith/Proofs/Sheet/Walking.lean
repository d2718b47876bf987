import Sheetsmith.Proofs.Sheet.Attached
import Sheetsmith.Proofs.Sheet.History

namespace Sheetsmith.Sheet

/-- A listing of what is below each node: every child with its own listing behind it, in the order
of the children. -/
def ListsBelow (s : Sheet) (listing : NodeId → List NodeId) : Prop :=
  ∀ id, listing id = (s.children id).flatMap fun child => child :: listing child

section

variable {s t : Sheet} {ids all : List NodeId}

/-- A listing of nodes is what any rule gives that lists every child with its own listing behind it.
-/
theorem Spans.eq_flatMap (h : Spans s ids all) {listing : NodeId → List NodeId}
    (hlisting : s.ListsBelow listing) : all = ids.flatMap fun id => id :: listing id := by
  induction h with
  | nil => rfl
  | @cons id ids below rest hbelow hrest ihbelow ihrest =>
    rw [List.flatMap_cons, hlisting id, ← ihbelow, ← ihrest]

/-- A listing depends on the children of its own nodes only. -/
theorem Spans.congr (h : Spans s ids all) (hchildren : ∀ id ∈ all, t.children id = s.children id) :
    Spans t ids all := by
  induction h with
  | nil => exact .nil
  | @cons id ids below rest hbelow hrest ihbelow ihrest =>
    refine .cons ?_ (ihrest fun i hi => hchildren i (by simp [hi]))
    rw [hchildren id (by simp)]
    exact ihbelow fun i hi => hchildren i (by simp [hi])

/-- An upward chain from the parent of a node holds what the node is below. -/
theorem Climbs.mem_iff_below {start : Option NodeId} (h : s.Climbs start ids) {id : NodeId}
    (hid : s.parent? id = start) (top : NodeId) : top ∈ ids ↔ s.Below id top := by
  induction h generalizing id with
  | top => simp [not_below_of_parent?_eq_none hid]
  | @step parent ids hrest ih =>
    rw [List.mem_cons, ih rfl]
    constructor
    · rintro (rfl | hbelow)
      · exact .single hid
      · exact .head hid hbelow
    · intro hbelow
      obtain ⟨up, hup, hrest⟩ := Relation.TransGen.head'_iff.1 hbelow
      rw [hid] at hup
      cases hup
      exact Relation.reflTransGen_iff_eq_or_transGen.1 hrest

end

namespace IsForest

variable {s : Sheet} (hs : s.IsForest)
include hs

/-- In a forest there is one listing of what is below a node, the one that the program makes. -/
theorem eq_descendants_of_spans {id : NodeId} {all : List NodeId}
    (h : Spans s (s.children id) all) : s.descendants id = all :=
  h.walk_eq (hs.length_le_size_of_spans h)

/-- The downward walk lists every child with its own listing behind it. The walk is bounded by the
number of slots, and in a forest that bound is never met. -/
theorem listsBelow_descendants : s.ListsBelow s.descendants := by
  have hspans {ids all : List NodeId} (h : Spans s ids all) :
      all = ids.flatMap fun id => id :: s.descendants id := by
    induction h with
    | nil => rfl
    | @cons id ids below rest hbelow hrest ihbelow ihrest =>
      rw [List.flatMap_cons, hs.eq_descendants_of_spans hbelow, ← ihrest]
  exact fun id => hspans (hs.spans_descendants id)

/-- The upward walk finds exactly the nodes that its start is below. -/
theorem mem_ancestors_iff {id top : NodeId} : top ∈ s.ancestors id ↔ s.Below id top :=
  (hs.climbs_ancestors id).mem_iff_below rfl top

/-- The upward walk stays inside a group as long as the group is the node itself or above it. -/
theorem isWithin_iff {id top : NodeId} : s.isWithin id top = true ↔ id = top ∨ s.Below id top := by
  rw [isWithin, Bool.or_eq_true, beq_iff_eq, List.contains_iff_mem, hs.mem_ancestors_iff]

end IsForest

/-- In a forest the walks down and up agree. The nodes below a group are listed as the recursion
over its children lists them, which nothing else does, and none of them twice; they are the other
nodes from which the way up leads to the group; and the nodes of the tree are the root and those
listed below it. Nothing is assumed of the nodes that are asked for: they may be detached, or not
exist. -/
theorem walks_agree {s : Sheet} (hs : s.IsForest) :
    (∀ listing, s.ListsBelow listing ↔ listing = s.descendants) ∧
    (∀ top, (s.descendants top).Nodup ∧
      ∀ id, id ∈ s.descendants top ↔ id ≠ top ∧ s.isWithin id top = true) ∧
    ∀ id, s.isAttached id = true ↔ id = root ∨ id ∈ s.descendants root := by
  refine ⟨fun listing => ⟨fun hlisting => ?_, ?_⟩, fun top => ⟨?_, fun id => ?_⟩,
    fun id => hs.isAttached_iff⟩
  · funext id
    rw [hlisting id, ← (hs.spans_descendants id).eq_flatMap hlisting]
  · rintro rfl
    exact hs.listsBelow_descendants
  · exact hs.nodup_of_spans (hs.spans_descendants top)
  · rw [hs.mem_descendants_iff, hs.isWithin_iff]
    constructor
    · intro hbelow
      refine ⟨?_, .inr hbelow⟩
      rintro rfl
      exact hs.not_below_self id hbelow
    · rintro ⟨hne, hwithin⟩
      exact hwithin.resolve_left hne

/-- Blocks inside each other, and one behind them. -/
def graftedText : String :=
  "a\x7bb\x7bc:d;e\x7bf:g\x7d\x7d\x7dh\x7bi:j\x7d"

/-- The inner blocks are taken out, and a copy of them goes into the last block. -/
def graftingSteps : List Step :=
  [.remove 2, .copySubtree 2, .appendChild 6 8]

theorem walks_agree_graftingSteps :
    let s := (parse true graftedText).after graftingSteps
    (s.descendants root = [1, 6, 7, 8, 9, 10, 11] ∧ s.descendants 2 = [3, 4, 5] ∧
      s.isAttached 4 = false) ∧
    s.IsForest ∧
      (∀ listing, s.ListsBelow listing ↔ listing = s.descendants) ∧
      (∀ top, (s.descendants top).Nodup ∧
        ∀ id, id ∈ s.descendants top ↔ id ≠ top ∧ s.isWithin id top = true) ∧
      ∀ id, s.isAttached id = true ↔ id = root ∨ id ∈ s.descendants root := by
  have hparse := isForest_parse true graftedText
  have hsafe : (parse true graftedText).SafeSteps graftingSteps :=
    hparse.safeSteps_of_areSafe (by decide +kernel)
  exact ⟨by decide +kernel, hparse.after hsafe, walks_agree (hparse.after hsafe)⟩

end Sheetsmith.Sheet
