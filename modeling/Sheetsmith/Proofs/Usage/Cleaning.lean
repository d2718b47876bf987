import Sheetsmith.Proofs.Sheet.Attach
import Sheetsmith.Proofs.Sheet.Attached
import Sheetsmith.Proofs.Sheet.ReadBack
import Sheetsmith.Proofs.Usage.Sift

namespace Sheetsmith.Sheet

open Usage

variable {table : Table} {tokens : List String}

/-- Groups that are not in the tree are passed over, and nothing is found out. This covers what was
inside of a group that was removed. -/
theorem foldl_cleanStep_of_detached {s : Sheet} {ids : List NodeId}
    (h : ∀ id ∈ ids, s.isAttached id = false) (table : Table) (findings : Findings) :
    ids.foldl (cleanStep table) (s, findings) = (s, findings) := by
  induction ids with
  | nil => rfl
  | cons id ids ih =>
    rw [List.foldl_cons, cleanStep_of_isAttached_eq_false (h id List.mem_cons_self)]
    exact ih fun i hi => h i (List.mem_cons_of_mem _ hi)

/-- The groups of a row are about to be looked at. The row stands behind `front` among the
children of the group `id`, which is in the tree. -/
structure Presents (s : Sheet) (id : NodeId) (header : Option String) (path front : List NodeId)
    (sheltered : Bool) (row : Row) : Prop where
  isForest : s.IsForest
  reaches : s.Reaches id path sheltered
  node : s.node? id = some (.group ⟨header, front ++ row.tops⟩)
  holds : s.Holds row
  nodup : row.numbers.Nodup
  apart : ∀ i ∈ path, i ∉ row.numbers

/-- The groups of a row have been looked at, and another row stands in its place. Nothing has
changed outside the row but the children of the group that it stands in. -/
structure Replaced (s t : Sheet) (id : NodeId) (header : Option String) (front : List NodeId)
    (row left : Row) : Prop where
  isForest : t.IsForest
  node : t.node? id = some (.group ⟨header, front ++ left.tops⟩)
  holds : t.Holds left
  node_eq : ∀ i ∉ row.numbers, i ≠ id → t.node? i = s.node? i
  parent_eq : ∀ i ∉ row.numbers, t.parent? i = s.parent? i

namespace Presents

variable {s t : Sheet} {id child : NodeId} {header selector : Option String}
  {path front : List NodeId} {sheltered : Bool} {row inner rest : Row} {node : Node}

/-- The top nodes of the row are children of the group that the row stands in. -/
theorem parent?_of_mem_tops (h : s.Presents id header path front sheltered row) {i : NodeId}
    (hi : i ∈ row.tops) : s.parent? i = some id := by
  apply h.isForest.parent?_of_mem_children
  rw [children_of_node? h.node]
  exact List.mem_append_right _ hi

/-- The group that a row stands in is not in the row. -/
theorem ne_of_mem (h : s.Presents id header path front sheltered row) {i : NodeId}
    (hi : i ∈ row.numbers) : i ≠ id := by
  rintro rfl
  exact h.apart i h.reaches.self_mem hi

/-- A leaf or declaration is passed over, and the nodes behind it are next. -/
theorem skip (h : s.Presents id header path front sheltered (.item child node rest)) :
    s.Presents id header path (front ++ [child]) sheltered rest where
  isForest := h.isForest
  reaches := h.reaches
  node := by
    rw [h.node, List.append_assoc]
    rfl
  holds := h.holds.2
  nodup := (List.nodup_cons.1 h.nodup).2
  apart i hi hmem := h.apart i hi (List.mem_cons_of_mem _ hmem)

section

variable (h : s.Presents id header path front sheltered (.group child selector inner rest))
include h

/-- A group of the row is not on the way from its parent up to the root. -/
theorem ne_of_mem_path {i : NodeId} (hi : i ∈ path) : i ≠ child := by
  rintro rfl
  exact h.apart i hi List.mem_cons_self

/-- The first group of a row has the group that the row stands in as its parent. -/
theorem parent?_child : s.parent? child = some id :=
  h.parent?_of_mem_tops List.mem_cons_self

/-- What is below the first group of a row is not the group that the row stands in. -/
theorem ne_of_mem_inner {i : NodeId} (hi : i ∈ inner.numbers) : i ≠ id :=
  h.ne_of_mem (List.mem_append_left _ (List.mem_cons_of_mem _ hi))

/-- What is behind the first group of a row is not the group that the row stands in. -/
theorem ne_of_mem_rest {i : NodeId} (hi : i ∈ rest.numbers) : i ≠ id :=
  h.ne_of_mem (List.mem_append_right _ hi)

/-- A group that is dropped leaves the nodes behind it to be looked at. -/
theorem drop : (s.remove child).Presents id header path front sheltered rest := by
  have hparent := h.parent?_child
  have hnodup := h.isForest.nodup_children id
  rw [children_of_node? h.node] at hnodup
  obtain ⟨-, -, hrest, -⟩ := Row.nodup_numbers_group.1 h.nodup
  refine ⟨h.isForest.remove child, ?_, ?_, ?_, hrest, fun i hi hmem => ?_⟩
  · refine h.reaches.congr (fun i hi => ?_) fun i _ => selector?_remove s child i
    rw [parent?_remove, if_neg (h.ne_of_mem_path hi)]
  · have hfront : child ∉ front := by
      intro hmem
      exact (List.disjoint_of_nodup_append hnodup) hmem List.mem_cons_self
    rw [node?_remove hparent, if_pos rfl, h.node]
    simp only [Option.map_some, Node.mapGroup, ← hnodup.erase_eq_filter]
    rw [List.erase_append_right _ hfront, Row.tops, List.erase_cons_head]
  · refine h.holds.2.2.congr fun i hi => ?_
    rw [node?_remove hparent, if_neg (h.ne_of_mem_rest hi)]
  · exact h.apart i hi (List.mem_append_right _ hmem)

/-- What is below a group that is dropped is no longer in the tree, so it is passed over when its
turn comes. -/
theorem isAttached_of_drop {i : NodeId} (hi : i ∈ inner.numbers) :
    (s.remove child).isAttached i = false := by
  have hparent := h.parent?_child
  have hforest := h.isForest.remove child
  have hchildren : (s.remove child).children child = inner.tops := by
    rw [children_remove hparent, if_neg (h.ne_of_mem List.mem_cons_self),
      children_of_node? h.holds.1]
  have hholds : (s.remove child).Holds inner := by
    refine h.holds.2.1.congr fun i hi => ?_
    rw [node?_remove hparent, if_neg (h.ne_of_mem_inner hi)]
  have htop : (s.remove child).isAttached child = false := by
    apply isAttached_of_parent?
    · rw [parent?_remove, if_pos rfl]
    · exact (h.ne_of_mem_path h.reaches.root_mem).symm
  refine hholds.spans.forall_mem (P := fun i => (s.remove child).isAttached i = false)
    (fun i hi => ?_) (fun parent hdetached i hi => ?_) i hi
  · rw [hforest.isAttached_eq_of_mem_children (hchildren ▸ hi), htop]
  · rw [hforest.isAttached_eq_of_mem_children hi, hdetached]

/-- The children of a group that stays are looked at under its new header, which may shelter them.
-/
theorem enter (header' : Option String) :
    (s.setSelector child header').Presents child header' (child :: path) []
      (sheltered || opensKeyframes header') inner := by
  obtain ⟨⟨hinner, -⟩, hnodup, -, -⟩ := Row.nodup_numbers_group.1 h.nodup
  have hnode : (s.setSelector child header').node? child =
      some (.group ⟨header', inner.tops⟩) := by
    rw [node?_setSelector, if_pos rfl, h.holds.1]
    rfl
  have hreaches : (s.setSelector child header').Reaches id path sheltered := by
    refine h.reaches.congr (fun i _ => parent?_setSelector s child i header') fun i hi => ?_
    exact selector?_setSelector_of_ne (h.ne_of_mem_path hi) header'
  refine ⟨h.isForest.setSelector child header', ?_, hnode, ?_, hnodup, fun i hi hmem => ?_⟩
  · have hparent : (s.setSelector child header').parent? child = some id := by
      rw [parent?_setSelector, h.parent?_child]
    have hchild := hreaches.descend hparent
    rwa [selector?_of_node? hnode] at hchild
  · refine h.holds.2.1.congr fun i hi => ?_
    rw [node?_setSelector, if_neg]
    rintro rfl
    exact hinner hi
  · rcases List.mem_cons.1 hi with rfl | hi
    · exact hinner hmem
    · exact h.apart i hi (List.mem_append_left _ (List.mem_cons_of_mem _ hmem))

/-- When the children of a group are done, the nodes behind it are next. Whatever was done to the
children, it has not reached them. -/
theorem leave {header' : Option String} {left : Row}
    (hinner : (s.setSelector child header').Replaced t child header' [] inner left) :
    t.Presents id header path (front ++ [child]) sheltered rest := by
  obtain ⟨⟨-, hchild⟩, -, hrest, hdisjoint⟩ := Row.nodup_numbers_group.1 h.nodup
  have hnode (i : NodeId) (hi : i ∉ inner.numbers) (hne : i ≠ child) : t.node? i = s.node? i := by
    rw [hinner.node_eq i hi hne, node?_setSelector, if_neg hne]
  have hpath (i : NodeId) (hi : i ∈ path) : i ∉ inner.numbers := fun hmem =>
    h.apart i hi (List.mem_append_left _ (List.mem_cons_of_mem _ hmem))
  refine ⟨hinner.isForest, ?_, ?_, ?_, hrest, fun i hi hmem => ?_⟩
  · refine h.reaches.congr (fun i hi => ?_) fun i hi => ?_
    · rw [hinner.parent_eq i (hpath i hi), parent?_setSelector]
    · exact selector?_congr (hnode i (hpath i hi) (h.ne_of_mem_path hi))
  · have hid := h.reaches.self_mem
    rw [hnode id (hpath id hid) (h.ne_of_mem_path hid), h.node, List.append_assoc]
    rfl
  · refine h.holds.2.2.congr fun i hi => hnode i (fun hmem => hdisjoint hmem hi) ?_
    rintro rfl
    exact hchild hi
  · exact h.apart i hi (List.mem_append_right _ hmem)

end

end Presents

namespace Replaced

variable {s t u : Sheet} {id child : NodeId} {header header' selector : Option String}
  {path front : List NodeId} {sheltered : Bool} {row inner rest left within : Row} {node : Node}

theorem skip (hbefore : s.Presents id header path front sheltered (.item child node rest))
    (h : s.Replaced t id header (front ++ [child]) rest left) :
    s.Replaced t id header front (.item child node rest) (.item child node left) := by
  have hne : child ≠ id := hbefore.ne_of_mem List.mem_cons_self
  have hchild : child ∉ rest.numbers := (List.nodup_cons.1 hbefore.nodup).1
  refine ⟨h.isForest, ?_, ⟨?_, h.holds⟩, fun i hi hid => ?_, fun i hi => ?_⟩
  · rw [h.node, List.append_assoc]
    rfl
  · rw [h.node_eq child hchild hne]
    exact hbefore.holds.1
  · exact h.node_eq i (fun hmem => hi (List.mem_cons_of_mem _ hmem)) hid
  · exact h.parent_eq i fun hmem => hi (List.mem_cons_of_mem _ hmem)

theorem drop (hbefore : s.Presents id header path front sheltered (.group child selector inner rest))
    (h : (s.remove child).Replaced t id header front rest left) :
    s.Replaced t id header front (.group child selector inner rest) left := by
  refine ⟨h.isForest, h.node, h.holds, fun i hi hid => ?_, fun i hi => ?_⟩
  · rw [h.node_eq i (fun hmem => hi (List.mem_append_right _ hmem)) hid,
      node?_remove hbefore.parent?_child, if_neg hid]
  · rw [h.parent_eq i fun hmem => hi (List.mem_append_right _ hmem), parent?_remove, if_neg]
    rintro rfl
    exact hi List.mem_cons_self

/-- A group that stays, with what is left inside of it and behind it. What is left inside must be
part of what was there. -/
theorem stay (hbefore : s.Presents id header path front sheltered (.group child selector inner rest))
    (hinner : (s.setSelector child header').Replaced t child header' [] inner within)
    (hwithin : within.numbers ⊆ inner.numbers)
    (h : t.Replaced u id header (front ++ [child]) rest left) :
    s.Replaced u id header front (.group child selector inner rest)
      (.group child header' within left) := by
  obtain ⟨⟨-, hchild⟩, -, -, hdisjoint⟩ := Row.nodup_numbers_group.1 hbefore.nodup
  refine ⟨h.isForest, ?_, ⟨?_, ?_, h.holds⟩, fun i hi hid => ?_, fun i hi => ?_⟩
  · rw [h.node, List.append_assoc]
    rfl
  · rw [h.node_eq child hchild (hbefore.ne_of_mem List.mem_cons_self), hinner.node]
    rfl
  · refine hinner.holds.congr fun i hi => ?_
    exact h.node_eq i (fun hmem => hdisjoint (hwithin hi) hmem)
      (hbefore.ne_of_mem_inner (hwithin hi))
  · simp only [Row.numbers, List.cons_append, List.mem_cons, List.mem_append, not_or] at hi
    rw [h.node_eq i hi.2.2 hid, hinner.node_eq i hi.2.1 hi.1, node?_setSelector, if_neg hi.1]
  · simp only [Row.numbers, List.cons_append, List.mem_cons, List.mem_append, not_or] at hi
    rw [h.parent_eq i hi.2.2, hinner.parent_eq i hi.2.1, parent?_setSelector]

end Replaced

/-- Looking at the groups of a row one after the other leaves what sifting leaves. The induction is
on the row; a group that is dropped takes what is below it along, although the program still visits
it. -/
theorem Presents.exists_replaced (htable : table.Tallies tokens) {s : Sheet} {id : NodeId}
    {header : Option String} {path front : List NodeId} {sheltered : Bool} {row : Row}
    (h : s.Presents id header path front sheltered row) (findings : Findings) :
    let sifted := sift tokens sheltered row
    ∃ t, row.groups.foldl (cleanStep table) (s, findings) =
        (t, findings.extend tokens sifted.kept sifted.removed) ∧
      s.Replaced t id header front row sifted.row := by
  induction row generalizing s id header path front sheltered findings with
  | nil =>
    refine ⟨s, ?_, h.isForest, h.node, trivial, fun _ _ _ => rfl, fun _ _ => rfl⟩
    exact congrArg (Prod.mk s) (findings.extend_nil tokens).symm
  | item child node rest ih =>
    obtain ⟨t, hfold, ht⟩ := ih h.skip findings
    exact ⟨t, hfold, ht.skip h⟩
  | group child selector inner rest ihinner ihrest =>
    have hstep := h.reaches.cleanStep_eq h.isForest h.parent?_child htable h.holds.1 findings
    dsimp only at hstep ⊢
    rw [Row.groups, List.cons_append, List.foldl_cons, List.foldl_append, hstep, sift]
    cases hheader : (judge tokens sheltered selector).header with
    | none =>
      -- Nothing below the group is in the tree any more, so nothing below it is looked at.
      have hinner : ∀ i ∈ inner.groups, (s.remove child).isAttached i = false :=
        fun i hi => h.isAttached_of_drop (inner.groups_subset_numbers hi)
      obtain ⟨t, hfold, ht⟩ := ihrest h.drop
        (findings.extend tokens (judge tokens sheltered selector).kept
          (judge tokens sheltered selector).removed)
      refine ⟨t, ?_, ht.drop h⟩
      dsimp only
      rw [foldl_cleanStep_of_detached hinner, hfold, Findings.extend_extend,
        kept_judge_eq_nil hheader, List.nil_append]
    | some header' =>
      obtain ⟨t, hfold, ht⟩ := ihinner (h.enter header')
        (findings.extend tokens (judge tokens sheltered selector).kept
          (judge tokens sheltered selector).removed)
      obtain ⟨u, hfold', hu⟩ := ihrest (h.leave ht) _
      refine ⟨u, ?_, ht.stay h (numbers_sift_subset _ _ _) hu⟩
      dsimp only
      rw [hfold, hfold', Findings.extend_extend, Findings.extend_extend]

/-- The row is all that is below the root. -/
def IsTree (s : Sheet) (row : Row) : Prop :=
  s.children root = row.tops ∧ s.Holds row

instance (s : Sheet) (row : Row) : Decidable (s.IsTree row) :=
  inferInstanceAs (Decidable (s.children root = row.tops ∧ s.Holds row))

/-- What a cleaning comes to, given the row that was below the root and what is left of it. -/
structure Cleaned (tokens : List String) (s : Sheet) (row : Row) (sifted : Sifted)
    (summary : Summary) (t : Sheet) : Prop where
  isForest : t.IsForest
  isTree : t.IsTree sifted.row
  selector_root : t.selector? root = s.selector? root
  /-- Nothing has changed outside the tree. -/
  outside : ∀ id ∉ row.numbers, id ≠ root →
    t.node? id = s.node? id ∧ t.parent? id = s.parent? id
  tokensFound : summary.tokensFound = (Table.pseudoClasses ++ tokens).dedup.length
  removed : summary.removed = sifted.removed
  usage : summary.usage.Reports tokens sifted.kept

/-- Before the first look the whole tree is presented, under the header of the root. -/
theorem IsForest.presents_tree {s : Sheet} (hs : s.IsForest) {row : Row} (hrow : s.IsTree row) :
    s.Presents root (s.selector? root) [root] [] (opensKeyframes (s.selector? root)) row := by
  obtain ⟨g, hg⟩ := Option.isSome_iff_exists.1 hs.root_group
  have hnode := group?_eq_some_iff.1 hg
  refine ⟨hs, ⟨.step ?_, List.mem_singleton_self root, ?_⟩, ?_, hrow.2,
    hs.nodup_numbers hrow.1 hrow.2, fun i hi hmem => ?_⟩
  · rw [hs.root_parent]
    exact .top
  · simp
  · rw [hnode, selector?_of_node? hnode, List.nil_append, ← hrow.1, children_of_node? hnode]
  · cases List.mem_singleton.1 hi
    have hbelow := hs.below_of_mem_numbers (fun i hi => hrow.1 ▸ hi) hrow.2 root hmem
    exact not_below_of_parent?_eq_none hs.root_parent hbelow

/-- Cleaning leaves what sifting leaves of the row below the root, and tells of what was sifted.
Files and strategy come in only by the names that they use. -/
theorem IsForest.exists_clean_eq {s : Sheet} (hs : s.IsForest) {row : Row} (hrow : s.IsTree row)
    (strategy : ScanStrategy) (contents : List String) :
    let tokens := contents.flatMap strategy.tokens
    let sifted := sift tokens (opensKeyframes (s.selector? root)) row
    ∃ t, s.clean strategy contents =
        (⟨contents.length, (Table.ofFiles strategy contents).size, sifted.removed,
          (Counts.addParts tokens [] sifted.kept).sorted⟩, t) ∧
      s.Replaced t root (s.selector? root) [] row sifted.row := by
  have htable := Table.tallies_ofFiles strategy contents
  obtain ⟨t, hfold, ht⟩ := (hs.presents_tree hrow).exists_replaced htable ⟨[], []⟩
  rw [← hs.groups_eq_groups hrow.1 hrow.2, ← cleanWith] at hfold
  refine ⟨t, ?_, ht⟩
  rw [clean, hfold]
  rfl

/-- What was left of the row is the whole tree from then on. -/
theorem Replaced.isTree {s t : Sheet} {header : Option String} {row left : Row}
    (h : s.Replaced t root header [] row left) : t.IsTree left := by
  refine ⟨?_, h.holds⟩
  rw [children_of_node? h.node]
  rfl

namespace IsForest

variable {s : Sheet} (hs : s.IsForest) {row : Row} (hrow : s.IsTree row) (strategy : ScanStrategy)
  (contents : List String)
include hs

theorem selector?_root_clean : (s.clean strategy contents).2.selector? root = s.selector? root := by
  obtain ⟨row, hrow⟩ := hs.exists_row root
  obtain ⟨t, hclean, ht⟩ := hs.exists_clean_eq hrow strategy contents
  rw [hclean]
  exact selector?_of_node? ht.node

include hrow

/-- What is below the root after cleaning is what sifting leaves. -/
theorem isTree_clean : (s.clean strategy contents).2.IsTree
    (sift (contents.flatMap strategy.tokens) (opensKeyframes (s.selector? root)) row).row := by
  obtain ⟨t, hclean, ht⟩ := hs.exists_clean_eq hrow strategy contents
  rw [hclean]
  exact ht.isTree

/-- The nodes that are left are those of the sifted row, in order. Whether the root shelters them
depends on its own header, which is looked at first. -/
theorem descendants_clean :
    (s.clean strategy contents).2.descendants root =
      (sift (contents.flatMap strategy.tokens) (opensKeyframes (s.selector? root))
        row).row.numbers := by
  obtain ⟨t, hclean, ht⟩ := hs.exists_clean_eq hrow strategy contents
  rw [hclean]
  exact ht.isForest.descendants_eq_numbers ht.isTree.1 ht.isTree.2

end IsForest

/-- Cleaning a sheet comes to sifting what is below its root, by the names that the files use. The
sheet may be any forest, whatever headers it has, and the files and the strategy may be any; nothing
is assumed about parts that start with `@` or are empty, which the sifting treats as the program
does. What the strategy finds in a file is not opened here: both sides get the same names. -/
theorem clean_sifts {s : Sheet} (hs : s.IsForest) (strategy : ScanStrategy)
    (contents : List String) :
    ∃ row, s.IsTree row ∧
      let tokens := contents.flatMap strategy.tokens
      let sifted := sift tokens (opensKeyframes (s.selector? root)) row
      let (summary, t) := s.clean strategy contents
      summary.filesScanned = contents.length ∧ Cleaned tokens s row sifted summary t := by
  obtain ⟨row, hrow⟩ := hs.exists_row root
  have htable := Table.tallies_ofFiles strategy contents
  obtain ⟨t, hfold, ht⟩ := (hs.presents_tree hrow).exists_replaced htable ⟨[], []⟩
  rw [← hs.groups_eq_groups hrow.1 hrow.2, ← cleanWith] at hfold
  refine ⟨row, hrow, ?_⟩
  rw [clean, hfold]
  refine ⟨rfl, ht.isForest, ⟨?_, ht.holds⟩, selector?_of_node? ht.node, ?_, htable.size_eq, ?_, ?_⟩
  · rw [children_of_node? ht.node]
    rfl
  · exact fun id hid hroot => ⟨ht.node_eq id hid hroot, ht.parent_eq id hid⟩
  · exact List.nil_append _
  · exact Counts.reports_sorted_addParts _ _

/-- An at-rule, keyframes, and groups of which one goes and takes a used selector along. -/
def mixedText : String :=
  "@media p\x7ba b,c:hover\x7bd:e\x7d\x7d@keyframes k\x7bto\x7bd:e\x7d\x7d" ++
    "z\x7ba\x7bd:e\x7d\x7da:b,a:c\x7bd:e\x7d"

/-- What is below the root when `mixedText` was read. -/
def mixedRow : Row :=
  .group 1 (some "@media p")
    (.group 2 (some "a b,c:hover") (.item 3 (.declaration ⟨"d", "e"⟩) .nil) .nil) <|
  .group 4 (some "@keyframes k")
    (.group 5 (some "to") (.item 6 (.declaration ⟨"d", "e"⟩) .nil) .nil) <|
  .group 7 (some "z") (.group 8 (some "a") (.item 9 (.declaration ⟨"d", "e"⟩) .nil) .nil) <|
  .group 10 (some "a:b,a:c") (.item 11 (.declaration ⟨"d", "e"⟩) .nil) .nil

theorem clean_sifts_mixedText :
    let s := parse true mixedText
    let tokens := ["a <b> a"].flatMap ScanStrategy.safe.tokens
    let sifted := sift tokens (opensKeyframes (s.selector? root)) mixedRow
    (s.IsForest ∧ s.IsTree mixedRow) ∧
      (tokens = ["a", "b", "a"] ∧ sifted.row.numbers = [1, 2, 3, 4, 5, 6, 10, 11] ∧
        sifted.removed = ["c:hover", "z"] ∧ sifted.kept = ["a b", "a:b", "a:c"]) ∧
      ∃ row, s.IsTree row ∧
        let sifted := sift tokens (opensKeyframes (s.selector? root)) row
        let (summary, t) := s.clean .safe ["a <b> a"]
        summary.filesScanned = 1 ∧ Cleaned tokens s row sifted summary t := by
  have hforest := isForest_parse true mixedText
  exact ⟨⟨hforest, by decide +kernel⟩, by decide +kernel, clean_sifts hforest .safe ["a <b> a"]⟩

end Sheetsmith.Sheet
