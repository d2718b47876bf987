import Sheetsmith.Proofs.Sheet.Ancestry
import Sheetsmith.Proofs.Sheet.ReadBack

namespace Sheetsmith

/-- A block with a header, told by its selector parts and the texts of its children. -/
def Layout.blockText : Layout → List String → List String → String
  | .compressed, parts, texts =>
    ",".intercalate parts ++ "\x7b" ++ "".intercalate texts ++ "\x7d"
  | .spread, parts, texts =>
    ", ".intercalate parts ++ "\x7b\n\t" ++ "\n\t".intercalate texts ++ "\n\x7d\n"

/-- A group without a header, told by the texts of its children. -/
def Layout.bareText : Layout → List String → String
  | .compressed, texts => "".intercalate texts
  | .spread, texts => "\n".intercalate texts

namespace Sheet

section

variable {s : Sheet} {layout : Layout} {id : NodeId} {ids : List NodeId} {o : Outline}
  {os : List Outline}

theorem Shows.head_tail (h : s.Shows (id :: ids) (o :: os)) : s.Shows [id] [o] ∧ s.Shows ids os := by
  cases h with
  | leaf hnode hrest => exact ⟨.leaf hnode .nil, hrest⟩
  | declaration hnode hrest => exact ⟨.declaration hnode .nil, hrest⟩
  | group hgroup hinner hrest => exact ⟨.group hgroup hinner .nil, hrest⟩

end

namespace IsForest

variable {s : Sheet} (hs : s.IsForest)
include hs

/-- What passes from all children to their group holds of every node of a forest. The node need not
be in the tree, and need not exist. -/
theorem induction_on {motive : NodeId → Prop}
    (h : ∀ id, (∀ child ∈ s.children id, motive child) → motive id) (id : NodeId) : motive id := by
  have hspans {ids all : List NodeId} (hspans : s.Spans ids all) : ∀ id ∈ ids, motive id := by
    induction hspans with
    | nil => exact fun _ hid => absurd hid List.not_mem_nil
    | cons _ _ ihbelow ihrest => exact List.forall_mem_cons.2 ⟨h _ ihbelow, ihrest⟩
  exact h id (hspans (hs.spans_descendants id))

/-- A node and what is listed below it are different nodes, so the walk down meets none of them
twice. -/
theorem nodup_cons_descendants (top : NodeId) : (top :: s.descendants top).Nodup :=
  List.nodup_cons.2
    ⟨mt hs.mem_descendants_iff.1 (hs.not_below_self top), hs.nodup_of_spans (hs.spans_descendants top)⟩

/-- Fewer nodes are below a node than there are slots, so the fuel of the walk and of the writer
never runs out in a forest. -/
theorem length_descendants_lt {id : NodeId} (hid : id < s.size) :
    (s.descendants id).length < s.size := by
  have hspans := hs.spans_descendants id
  have hsub : id :: s.descendants id ⊆ List.range s.size := by
    refine List.cons_subset.2 ⟨List.mem_range.2 hid, fun i hi => List.mem_range.2 ?_⟩
    exact hspans.forall_mem (fun _ h => hs.lt_size_of_mem_children h)
      (fun _ _ _ h => hs.lt_size_of_mem_children h) i hi
  have hle := (List.subperm_of_subset (hs.nodup_cons_descendants id) hsub).length_le
  rwa [List.length_range] at hle

/-- A node is written as its outline. The writer works off a stack; the outline is written by
recursion. -/
theorem renderNode_eq_text {id : NodeId} {o : Outline} (h : s.Shows [id] [o]) (layout : Layout) :
    s.renderNode layout id = o.text layout (s.isLastChild id) := by
  obtain ⟨n, hn, hwrites⟩ : ∃ n ≤ 4 * s.size + 1,
      s.Writes layout n [.node id] (o.text layout (s.isLastChild id)) := by
    cases h with
    | leaf hnode _ =>
      refine ⟨2, ?_, writes_node ?_⟩
      · have hpos : 0 < s.size := Nat.zero_lt_of_lt (lt_size_of_node? hnode)
        omega
      · rw [expand, hnode]
        exact writes_text _
    | declaration hnode _ =>
      refine ⟨2, ?_, writes_node ?_⟩
      · have hpos : 0 < s.size := Nat.zero_lt_of_lt (lt_size_of_node? hnode)
        omega
      · rw [expand, hnode]
        exact writes_text _
    | @group _ _ inner _ hgroup hinner _ =>
      obtain ⟨g, hg⟩ := Option.isSome_iff_exists.1 hgroup
      have hspans := hs.spans_descendants id
      obtain ⟨k, hk, hwrites⟩ := writes_group hgroup (n := 4 * (s.descendants id).length)
        (fun gap => hs.writes_spaced layout hinner hspans (List.nil_append _).symm gap)
        (s.isLastChild id)
      have hlength := hs.length_descendants_lt (lt_size_of_node? (group?_eq_some_iff.1 hg))
      exact ⟨k, by omega, hwrites⟩
  obtain ⟨more, hmore⟩ := Nat.exists_eq_add_of_le hn
  have hnil (out : String) : s.write layout more [] out = out := by
    cases more <;> rfl
  rw [renderNode, hmore]
  simpa [hnil] using hwrites more [] ""

/-- Spread over lines, a node is written in the same way wherever it stands: each declaration keeps
its semicolon there. -/
theorem renderNode_spread {id : NodeId} {o : Outline} (h : s.Shows [id] [o]) :
    s.renderNode .spread id = o.text .spread true := by
  rw [hs.renderNode_eq_text h]
  cases o <;> simp [Outline.text]

/-- The outlines of the last children of a group are written one by one, each as its node is, with
the gap between them. That they are last matters for the semicolon in compressed layout. -/
theorem texts_eq_intercalate {ids : List NodeId} {os : List Outline} (h : s.Shows ids os)
    {parent : NodeId} {front : List NodeId} (hchildren : s.children parent = front ++ ids)
    (layout : Layout) (gap : String) :
    Outline.texts layout gap os = gap.intercalate (ids.map (s.renderNode layout)) := by
  induction os generalizing ids front with
  | nil =>
    cases h
    rfl
  | cons o os ih =>
    cases ids with
    | nil => cases h
    | cons id ids =>
      obtain ⟨hhead, htail⟩ := h.head_tail
      have hrest := ih htail (by rw [hchildren, List.append_cons])
      have htext : s.renderNode layout id = o.text layout os.isEmpty := by
        rw [hs.renderNode_eq_text hhead, hs.isLastChild_eq hchildren, htail.isEmpty_eq]
      rw [Outline.texts, hrest, ← htext, ← htail.isEmpty_eq]
      cases ids with
      | nil => simp
      | cons next ids =>
        rw [List.map_cons, List.map_cons, List.map_cons, String.intercalate_cons_cons]
        rfl

/-- A group is written as the texts around its children and theirs. Without selector parts there are
no braces, so only the content of such a group is written. -/
theorem renderNode_group {id : NodeId} {g : Group} (hnode : s.node? id = some (.group g))
    (layout : Layout) :
    s.renderNode layout id =
      if s.selectors id = [] then layout.rootGap.intercalate (g.children.map (s.renderNode layout))
      else
        layout.comma.intercalate (s.selectors id) ++ layout.blockOpen ++
          layout.blockGap.intercalate (g.children.map (s.renderNode layout)) ++ layout.blockClose := by
  obtain ⟨inner, hinner⟩ := hs.exists_shows_children id
  have hgroup : (s.group? id).isSome := by
    rw [group?_eq_some_iff.2 hnode]
    rfl
  rw [hs.renderNode_eq_text (.group hgroup hinner .nil), Outline.text,
    hs.texts_eq_intercalate hinner (List.nil_append _).symm,
    hs.texts_eq_intercalate hinner (List.nil_append _).symm, children_of_node? hnode]
  simp only [List.isEmpty_iff]

end IsForest

/-- A text for every node that is told by the texts of its children. A leaf is its text; a
declaration is its name and value, with a semicolon unless it comes last in its group in compressed
layout; a group with a header has its children in braces, and any other group is its children. -/
structure Composes (s : Sheet) (layout : Layout) (text : NodeId → String) : Prop where
  leaf : ∀ id leaf, s.node? id = some (.leaf leaf) → text id = leaf.text
  last : ∀ id d parent front, s.node? id = some (.declaration d) →
    layout = .compressed → s.children parent = front ++ [id] → text id = d.name ++ ":" ++ d.value
  stopped : ∀ id d, s.node? id = some (.declaration d) →
    (layout = .compressed → ∀ parent front, s.children parent ≠ front ++ [id]) →
    text id = d.name ++ ":" ++ d.value ++ ";"
  block : ∀ id selector children, s.node? id = some (.group ⟨some selector, children⟩) →
    selector ≠ "" → text id = layout.blockText (selectorParts selector) (children.map text)
  bare : ∀ id selector children, s.node? id = some (.group ⟨selector, children⟩) →
    (selector = none ∨ selector = some "") → text id = layout.bareText (children.map text)

section

variable {s : Sheet} {layout : Layout} {text text' : NodeId → String} (hs : s.IsForest)
include hs

/-- A node counts as a last child when the children of some group end with it; in a forest that
group is its parent. -/
theorem IsForest.isLastChild_iff {id : NodeId} :
    s.isLastChild id = true ↔ ∃ parent front, s.children parent = front ++ [id] := by
  constructor
  · intro hlast
    rw [isLastChild, beq_iff_eq] at hlast
    obtain ⟨front, hfront⟩ := List.getLast?_eq_some_iff.1 hlast
    rw [family] at hfront
    cases hparent : s.parent? id with
    | none => simp [hparent] at hfront
    | some parent => exact ⟨parent, front, by simpa [hparent] using hfront⟩
  · rintro ⟨parent, front, hchildren⟩
    exact hs.isLastChild_eq hchildren

/-- What the writer gives for the nodes of a forest is told by what it gives for their children, in
both layouts. The fuel of the writer does not show. -/
theorem IsForest.composes_renderNode (layout : Layout) : s.Composes layout (s.renderNode layout) := by
  have hdeclaration {id : NodeId} {d : Declaration} (hnode : s.node? id = some (.declaration d)) :=
    hs.renderNode_eq_text (.declaration hnode .nil) layout
  refine ⟨fun id leaf hnode => ?_, fun id d parent front hnode hlayout hlast => ?_,
    fun id d hnode hstop => ?_, fun id selector children hnode hne => ?_,
    fun id selector children hnode hbare => ?_⟩
  · rw [hs.renderNode_eq_text (.leaf hnode .nil), Outline.text]
  · rw [hdeclaration hnode, hs.isLastChild_iff.2 ⟨parent, front, hlast⟩, Outline.text, hlayout]
    simp
  · have hnot : ¬ (layout = .compressed ∧ s.isLastChild id = true) := by
      rintro ⟨hlayout, hlast⟩
      obtain ⟨parent, front, hchildren⟩ := hs.isLastChild_iff.1 hlast
      exact hstop hlayout parent front hchildren
    rw [hdeclaration hnode, Outline.text]
    simp [hnot]
  · have hselectors : s.selectors id = selectorParts selector := by
      rw [selectors, selector?_of_node? hnode]
    have hparts : s.selectors id ≠ [] := by
      rw [hselectors, Ne, selectorParts_eq_nil_iff, String.isEmpty_iff]
      exact hne
    rw [hs.renderNode_group hnode, if_neg hparts, hselectors]
    cases layout <;> rfl
  · have hselectors : s.selectors id = [] := by
      rw [selectors, selector?_of_node? hnode]
      rcases hbare with rfl | rfl <;> rfl
    rw [hs.renderNode_group hnode, if_pos hselectors]
    cases layout <;> rfl

/-- Only the texts of the nodes of the sheet matter: whatever is said of numbers that no node has,
the relation stays. -/
theorem Composes.congr (h : s.Composes layout text) (htext : ∀ id < s.size, text' id = text id) :
    s.Composes layout text' := by
  have hnode {id : NodeId} {node : Node} (hnode : s.node? id = some node) : text' id = text id :=
    htext id (lt_size_of_node? hnode)
  have hchildren {id : NodeId} {g : Group} (hgroup : s.node? id = some (.group g)) :
      g.children.map text' = g.children.map text := by
    refine List.map_congr_left fun child hchild => htext child ?_
    exact hs.lt_size_of_mem_children (children_of_node? hgroup ▸ hchild)
  refine ⟨fun id leaf hleaf => ?_, fun id d parent front hd hlayout hlast => ?_,
    fun id d hd hstop => ?_, fun id selector children hgroup hne => ?_,
    fun id selector children hgroup hbare => ?_⟩
  · rw [hnode hleaf, h.leaf id leaf hleaf]
  · rw [hnode hd, h.last id d parent front hd hlayout hlast]
  · rw [hnode hd, h.stopped id d hd hstop]
  · rw [hnode hgroup, h.block id selector children hgroup hne, hchildren hgroup]
  · rw [hnode hgroup, h.bare id selector children hgroup hbare, hchildren hgroup]

/-- A text that is told by the texts of the children can be told in one way only, by induction from
the children to their group. -/
theorem Composes.unique (h : s.Composes layout text) (h' : s.Composes layout text') :
    ∀ id < s.size, text id = text' id := by
  refine hs.induction_on fun id ih hid => ?_
  obtain ⟨node, hnode⟩ := exists_node?_of_lt hid
  cases node with
  | leaf leaf => rw [h.leaf id leaf hnode, h'.leaf id leaf hnode]
  | declaration d =>
    by_cases hlast : layout = .compressed ∧ ∃ parent front, s.children parent = front ++ [id]
    · obtain ⟨hlayout, parent, front, hchildren⟩ := hlast
      rw [h.last id d parent front hnode hlayout hchildren,
        h'.last id d parent front hnode hlayout hchildren]
    · have hstop : layout = .compressed → ∀ parent front, s.children parent ≠ front ++ [id] :=
        fun hlayout parent front hchildren => hlast ⟨hlayout, parent, front, hchildren⟩
      rw [h.stopped id d hnode hstop, h'.stopped id d hnode hstop]
  | group g =>
    obtain ⟨selector, children⟩ := g
    have hchildren : children.map text = children.map text' := by
      refine List.map_congr_left fun child hchild => ?_
      have hmem : child ∈ s.children id := children_of_node? hnode ▸ hchild
      exact ih child hmem (hs.lt_size_of_mem_children hmem)
    by_cases hbare : selector = none ∨ selector = some ""
    · rw [h.bare id selector children hnode hbare, h'.bare id selector children hnode hbare,
        hchildren]
    · obtain ⟨header, rfl⟩ := Option.ne_none_iff_exists'.1 fun hnone => hbare (.inl hnone)
      have hne : header ≠ "" := fun hempty => hbare (.inr (by rw [hempty]))
      rw [h.block id header children hnode hne, h'.block id header children hnode hne, hchildren]

end

/-- Writing with a stack is writing by recursion over the tree, for every node of a forest, attached
or not, and in both layouts: the texts that are told by the texts of the children are those that the
writer gives, and no others. Nothing is assumed about headers, names and values. -/
theorem composes_iff {s : Sheet} (hs : s.IsForest) (layout : Layout) (text : NodeId → String) :
    s.Composes layout text ↔ ∀ id < s.size, text id = s.renderNode layout id :=
  ⟨fun h => h.unique hs (hs.composes_renderNode layout),
    fun h => (hs.composes_renderNode layout).congr hs h⟩

/-- A block in a block, a declaration behind it, and a block without content. -/
def nestedBlocksText : String :=
  "@media p\x7ba , b\x7bc:d;e:f\x7d\x7dg:h;i\x7b\x7d"

theorem composes_iff_nestedBlocksText :
    let s := parse true nestedBlocksText
    (s.IsForest ∧ s.renderNode .compressed root = "@media p\x7ba,b\x7bc:d;e:f\x7d\x7dg:h;i\x7b\x7d" ∧
      s.renderNode .spread 2 = "a, b\x7b\n\tc:d;\n\te:f;\n\x7d\n") ∧
    ∀ text, s.Composes .compressed text ↔ ∀ id < s.size, text id = s.renderNode .compressed id := by
  have hforest := isForest_parse true nestedBlocksText
  exact ⟨⟨hforest, by decide +kernel, by decide +kernel⟩, composes_iff hforest .compressed⟩

end Sheet

end Sheetsmith
