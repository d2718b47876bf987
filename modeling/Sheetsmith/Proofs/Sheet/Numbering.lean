import Sheetsmith.Proofs.Sheet.Growth
import Sheetsmith.Proofs.Sheet.Headers
import Sheetsmith.Proofs.Sheet.Walking

namespace Sheetsmith

/-- The node that an event makes, while it has no children. -/
def Event.made? : Event → Option Node
  | .opened selector => some (.group ⟨selector, []⟩)
  | .declaration name value => some (.declaration ⟨name, value⟩)
  | .importRule text => some (.leaf ⟨.importRule, text⟩)
  | .comment text => some (.leaf ⟨.comment, text⟩)
  | .closed => none

namespace Sheet

/-- The right edge of the tree: the root, and the last child of every group on the edge. A node that
is put behind the last child of a group on the edge comes last in the whole listing. -/
inductive OnEdge (s : Sheet) : NodeId → Prop where
  | root : OnEdge s root
  | last {id parent : NodeId} (hparent : OnEdge s parent)
      (hlast : (s.children parent).getLast? = some id) : OnEdge s id

/-- What is at or below a child is below its parent, and is not the parent. Forests have no cycles,
so no node is below itself. -/
theorem IsForest.below_parent {s : Sheet} (hs : s.IsForest) {id parent i : NodeId}
    (hid : s.parent? id = some parent) (hi : id = i ∨ s.Below i id) :
    s.Below i parent ∧ parent ≠ i := by
  have hbelow : s.Below i parent := by
    rcases hi with rfl | hi
    · exact .single hid
    · exact hi.tail hid
  refine ⟨hbelow, ?_⟩
  rintro rfl
  exact hs.not_below_self parent hbelow

/-- What is at or below a child is neither at nor below another child of the same group. The
subtrees of two siblings therefore have no node in common. -/
theorem IsForest.apart_of_siblings {s : Sheet} (hs : s.IsForest) {id other parent i : NodeId}
    (hid : s.parent? id = some parent) (hother : s.parent? other = some parent) (hne : other ≠ id)
    (hi : id = i ∨ s.Below i id) : other ≠ i ∧ ¬ s.Below i other := by
  constructor
  · rintro rfl
    rcases hi with heq | hbelow
    · exact hne heq.symm
    · exact hs.not_below_sibling hother hid hbelow
  · intro hbelow
    rcases hi with rfl | hi
    · exact hs.not_below_sibling hid hother hbelow
    · rcases hbelow.eq_or_below hi with heq | hup | hup
      · exact hne heq
      · exact hs.not_below_sibling hother hid hup
      · exact hs.not_below_sibling hid hother hup

end Sheet

namespace Builder

open Sheet

section

variable {s t : Sheet} {current id : NodeId} {node : Node}

/-- The new node comes last in the group that was open. -/
theorem Added.children_current (h : Added s t current node) (hgroup : (s.group? current).isSome) :
    t.children current = s.children current ++ [s.size] := by
  obtain ⟨g, hg⟩ := Option.isSome_iff_exists.1 hgroup
  have ht : t.group? current = some { g with children := g.children ++ [s.size] } := by
    rw [h.group, hg]
    rfl
  rw [children_of_group? ht, children_of_group? hg]

theorem Added.children_of_ne (h : Added s t current node) (hid : id < s.size) (hne : id ≠ current) :
    t.children id = s.children id := by
  rw [children, children, group?, group?, h.node_other id hid hne]

/-- A new node has no children, so long as it is made without any. -/
theorem Added.children_new (h : Added s t current node) (halone : node.alone = node) :
    t.children s.size = [] := by
  cases node with
  | group g =>
    rw [children_of_node? h.new]
    exact Node.children_alone halone
  | _ => exact children_eq_nil_of_kind h.new (by simp [Node.kind])

/-- The old nodes keep their content. Only the list of children of the open group has changed. -/
theorem Added.alone_old (h : Added s t current node) (hgroup : (s.group? current).isSome)
    (hid : id < s.size) : (t.node? id).map Node.alone = (s.node? id).map Node.alone := by
  by_cases hne : id = current
  · obtain ⟨g, hg⟩ := Option.isSome_iff_exists.1 hgroup
    have ht := h.group
    rw [hg, Option.map_some] at ht
    rw [hne, group?_eq_some_iff.1 ht, group?_eq_some_iff.1 hg]
    rfl
  · rw [h.node_other id hid hne]

variable (hs : s.IsForest) (h : Added s t current node)
include hs h

/-- The edge goes on to the group that got the new node. Nodes that do not lead there have left the
edge. -/
theorem Added.onEdge (hedge : s.OnEdge id) (habove : id = current ∨ s.Below current id) :
    t.OnEdge id := by
  induction hedge with
  | root => exact .root
  | @last id parent hparent hlast ih =>
    have hidparent := hs.parent?_of_mem_children (List.mem_of_getLast? hlast)
    obtain ⟨hbelow, hne⟩ := hs.below_parent hidparent habove
    refine .last (ih (.inr hbelow)) ?_
    rw [h.children_of_ne (hs.parent_lt_size hidparent) hne]
    exact hlast

variable (ht : t.IsForest)
include ht

/-- What is listed below a node stays the same when the new node goes somewhere else. -/
theorem Added.descendants_of_not_below (hid : id < s.size) (hne : id ≠ current)
    (hbelow : ¬ s.Below current id) : t.descendants id = s.descendants id := by
  apply ht.eq_descendants_of_spans
  rw [h.children_of_ne hid hne]
  apply (hs.spans_descendants id).congr
  intro i hi
  have hi := hs.mem_descendants_iff.1 hi
  obtain ⟨parent, hparent, -⟩ := Relation.TransGen.head'_iff.1 hi
  apply h.children_of_ne (lt_size_of_parent? hparent)
  rintro rfl
  exact hbelow hi

/-- The new node comes last among what is listed below its group. For the groups around it more has
to be assumed. -/
theorem Added.descendants_current (halone : node.alone = node)
    (hgroup : (s.group? current).isSome) :
    t.descendants current = s.descendants current ++ [s.size] := by
  have hold : (s.children current).flatMap (fun child => child :: t.descendants child) =
      s.descendants current := by
    rw [hs.listsBelow_descendants current]
    apply List.flatMap_congr
    intro child hchild
    have hparent := hs.parent?_of_mem_children hchild
    rw [h.descendants_of_not_below hs ht (lt_size_of_parent? hparent)]
    · rintro rfl
      exact hs.not_below_self child (.single hparent)
    · intro hbelow
      exact hs.not_below_self child (.head hparent hbelow)
  have hnew : t.descendants s.size = [] := by
    rw [ht.listsBelow_descendants s.size, h.children_new halone]
    rfl
  rw [ht.listsBelow_descendants current, h.children_current hgroup, List.flatMap_append, hold,
    List.flatMap_singleton, hnew]

/-- A node that comes last below a group on the edge comes last below the root. The proof goes up
the edge, from the group to the root. -/
theorem Added.descendants_root_of_onEdge (hedge : s.OnEdge id)
    (habove : id = current ∨ s.Below current id)
    (hid : t.descendants id = s.descendants id ++ [s.size]) :
    t.descendants root = s.descendants root ++ [s.size] := by
  -- The induction goes up along the edge, with the listing of one group after the other.
  induction hedge with
  | root => exact hid
  | @last id parent hparent hlast ih =>
    obtain ⟨front, hchildren⟩ := List.getLast?_eq_some_iff.1 hlast
    have hnodup := hs.nodup_children parent
    rw [hchildren] at hnodup
    have hchild : ∀ i ∈ front ++ [id], s.parent? i = some parent :=
      fun i hi => hs.parent?_of_mem_children (hchildren ▸ hi)
    have hidparent := hchild id (by simp)
    obtain ⟨hbelow, hne⟩ := hs.below_parent hidparent habove
    have hfront : front.flatMap (fun i => i :: t.descendants i) =
        front.flatMap fun i => i :: s.descendants i := by
      apply List.flatMap_congr
      intro i hi
      have hiparent := hchild i (by simp [hi])
      have hiid : i ≠ id := by
        rintro rfl
        exact List.disjoint_of_nodup_append hnodup hi (List.mem_singleton_self i)
      have hapart := hs.apart_of_siblings hidparent hiparent hiid habove
      rw [h.descendants_of_not_below hs ht (lt_size_of_parent? hiparent) hapart.1 hapart.2]
    apply ih (.inr hbelow)
    rw [ht.listsBelow_descendants parent, hs.listsBelow_descendants parent,
      h.children_of_ne (hs.parent_lt_size hidparent) hne, hchildren, List.flatMap_append,
      List.flatMap_append, hfront, List.flatMap_singleton, List.flatMap_singleton, hid]
    simp

end

/-- What has been built when `nodes` were made: they have the numbers from 1 on, in this order, and
the tree lists them so; every node but the root is in a group with a smaller number; and the
innermost open block is on the right edge. -/
structure Numbered (nodes : List Node) (b : Builder) : Prop where
  isForest : b.sheet.IsForest
  isSome_group? : (b.sheet.group? b.current).isSome
  onEdge : b.sheet.OnEdge b.current
  size_eq : b.sheet.size = nodes.length + 1
  descendants_eq : b.sheet.descendants root = List.range' 1 nodes.length
  alone_eq : ∀ n, (b.sheet.node? (n + 1)).map Node.alone = nodes[n]?
  parent_lt : ∀ id parent, b.sheet.parent? id = some parent → parent < id

/-- The empty sheet has nothing but its root, which is on the edge. -/
theorem numbered_empty : Numbered [] ⟨empty, root⟩ where
  isForest := isForest_empty
  isSome_group? := rfl
  onEdge := .root
  size_eq := rfl
  descendants_eq := by decide
  alone_eq n := by
    rw [node?_eq_none_of_size_le (by simp [Sheet.size, empty])]
    rfl
  parent_lt id parent h := by
    cases id <;> simp [parent?, empty] at h

namespace Numbered

variable {nodes : List Node} {b : Builder} (hb : b.Numbered nodes)
include hb

/-- A new node has the next number and comes last. If it is a group, it may be the innermost open
block from then on. -/
theorem add (node : Node) (halone : node.alone = node) :
    (b.add node).2.Numbered (nodes ++ [node]) ∧
      ∀ g, node = .group g →
        Numbered (nodes ++ [node]) ⟨(b.add node).2.sheet, (b.add node).1⟩ := by
  have hs := hb.isForest
  have hcurrent : b.current < b.sheet.size := by
    obtain ⟨g, hg⟩ := Option.isSome_iff_exists.1 hb.isSome_group?
    exact lt_size_of_node? (group?_eq_some_iff.1 hg)
  have hnode : ∀ g, node = .group g → g.children = [] := by
    rintro g rfl
    exact Node.children_alone halone
  have ht := hs.create_link hnode hb.isSome_group? (places_concat b.sheet.size)
  have hadded := added_link hcurrent node
  rw [add_eq hb.isSome_group? hs.root_lt_size]
  dsimp only at hadded ht ⊢
  generalize (b.sheet.create node).2.link b.current b.sheet.size (· ++ [b.sheet.size]) = t
    at hadded ht ⊢
  have hedge : t.OnEdge b.current := hadded.onEdge hs hb.onEdge (.inl rfl)
  have hgroup : (t.group? b.current).isSome := by
    rw [hadded.group, Option.isSome_map]
    exact hb.isSome_group?
  have hdescendants : t.descendants root = List.range' 1 (nodes ++ [node]).length := by
    have hlast := hadded.descendants_current hs ht halone hb.isSome_group?
    rw [hadded.descendants_root_of_onEdge hs ht hb.onEdge (.inl rfl) hlast, hb.descendants_eq,
      hb.size_eq, List.length_append, List.length_singleton, List.range'_1_concat, Nat.add_comm]
  have halones (n : Nat) : (t.node? (n + 1)).map Node.alone = (nodes ++ [node])[n]? := by
    rcases Nat.lt_trichotomy n nodes.length with hn | rfl | hn
    · have hold : n + 1 < b.sheet.size := by
        rw [hb.size_eq]
        omega
      rw [List.getElem?_append_left hn, ← hb.alone_eq n, hadded.alone_old hb.isSome_group? hold]
    · rw [List.getElem?_concat_length, ← hb.size_eq, hadded.new, Option.map_some, halone]
    · rw [node?_eq_none_of_size_le (by rw [hadded.size, hb.size_eq]; omega)]
      simp
      omega
  have hparent (id parent : NodeId) (h : t.parent? id = some parent) : parent < id := by
    have hlt := lt_size_of_parent? h
    rw [hadded.size] at hlt
    rcases Nat.lt_succ_iff_lt_or_eq.1 hlt with hold | rfl
    · rw [hadded.parent_other id hold] at h
      exact hb.parent_lt id parent h
    · rw [hadded.parent] at h
      cases h
      exact hcurrent
  have hsize : t.size = (nodes ++ [node]).length + 1 := by
    rw [hadded.size, hb.size_eq, List.length_append, List.length_singleton]
  refine ⟨⟨ht, hgroup, hedge, hsize, hdescendants, halones, hparent⟩, ?_⟩
  rintro g rfl
  refine ⟨ht, ?_, .last hedge ?_, hsize, hdescendants, halones, hparent⟩
  · rw [group?_eq_some_iff.2 hadded.new]
    rfl
  · rw [hadded.children_current hb.isSome_group?, List.getLast?_concat]

/-- When a block closes, the one around it is on the edge too. At the root a closing brace changes
nothing. -/
theorem close : (b.step .closed).Numbered nodes := by
  have hclosed := isForest_step ⟨hb.isForest, hb.isSome_group?⟩ .closed
  refine ⟨hclosed.1, hclosed.2, ?_, hb.size_eq, hb.descendants_eq, hb.alone_eq, hb.parent_lt⟩
  have hedge := hb.onEdge
  dsimp only [step]
  generalize b.current = current at hedge ⊢
  cases hedge with
  | root =>
    rw [hb.isForest.root_parent]
    exact .root
  | last hparent hlast =>
    rw [hb.isForest.parent?_of_mem_children (List.mem_of_getLast? hlast)]
    exact hparent

/-- One event adds the node that it makes, if any, to those that are numbered. -/
theorem step (event : Event) : (b.step event).Numbered (nodes ++ event.made?.toList) := by
  cases event with
  | opened selector => exact (hb.add (.group ⟨selector, []⟩) rfl).2 _ rfl
  | declaration name value => exact (hb.add (.declaration ⟨name, value⟩) rfl).1
  | importRule text => exact (hb.add (.leaf ⟨.importRule, text⟩) rfl).1
  | comment text => exact (hb.add (.leaf ⟨.comment, text⟩) rfl).1
  | closed => exact (List.append_nil nodes).symm ▸ hb.close

/-- A run of events adds the nodes that they make, one after the other. -/
theorem foldl_step (events : List Event) :
    (events.foldl Builder.step b).Numbered (nodes ++ events.filterMap Event.made?) := by
  induction events generalizing b nodes with
  | nil => exact (List.append_nil nodes).symm ▸ hb
  | cons event events ih =>
    have hnext := ih (hb.step event)
    cases hmade : event.made? with
    | none =>
      rw [List.filterMap_cons_none hmade]
      simpa [hmade] using hnext
    | some node =>
      rw [List.filterMap_cons_some hmade]
      simpa [hmade] using hnext

end Numbered

end Builder

namespace Sheet

/-- The nodes of a sheet that was read are numbered in the order of the text, and none is lost. What
the text tells of has the numbers from 1 on, in the order in which it is told, and the tree below
the root lists just these numbers; every node but the root is in a group with a smaller number; the
root has no header, and no header is empty. Nothing is assumed about the text, which may have
unclosed blocks and braces too many. -/
theorem parse_numbers (trim : Bool) (text : String) :
    let s := parse trim text
    let nodes := (Event.ofText trim text).filterMap Event.made?
    s.size = nodes.length + 1 ∧
    s.descendants root = List.range' 1 nodes.length ∧
    (∀ n, (s.node? (n + 1)).map Node.alone = nodes[n]?) ∧
    (∀ id < s.size, id ≠ root →
      ∃ parent g, s.parent? id = some parent ∧ parent < id ∧ s.group? parent = some g) ∧
    s.selector? root = none ∧
    ∀ id selector, s.selector? id = some selector → selector ≠ "" := by
  have hnumbered := Builder.numbered_empty.foldl_step (Event.ofText trim text)
  refine ⟨hnumbered.size_eq, hnumbered.descendants_eq, hnumbered.alone_eq, fun id hid hroot => ?_,
    (isDocument_parse trim text).selector_root, ?_⟩
  · have hlisted : id ∈ (parse trim text).descendants root := by
      rw [parse, ofEvents, hnumbered.descendants_eq, List.mem_range'_1]
      rw [parse, ofEvents, hnumbered.size_eq] at hid
      have hpos := Nat.pos_of_ne_zero hroot
      simp only [List.nil_append] at hid ⊢
      omega
    have hbelow := hnumbered.isForest.mem_descendants_iff.1 hlisted
    obtain ⟨parent, hparent, -⟩ := Relation.TransGen.head'_iff.1 hbelow
    obtain ⟨g, hg⟩ := hnumbered.isForest.exists_group_of_parent? hparent
    exact ⟨parent, g, hparent, hnumbered.parent_lt id parent hparent, hg⟩
  · rintro id selector hselector rfl
    exact headed_parse trim text id hselector

end Sheet

end Sheetsmith
