import Sheetsmith.Proofs.Sheet.Composition
import Sheetsmith.Proofs.Sheet.Copying
import Sheetsmith.Proofs.Sheet.Walking

namespace Sheetsmith

/-- Gives the children of a group other numbers. -/
def Node.renumber (number : NodeId → NodeId) (node : Node) : Node :=
  node.mapGroup fun g => { g with children := g.children.map number }

@[simp] theorem Node.alone_renumber (number : NodeId → NodeId) (node : Node) :
    (node.renumber number).alone = node.alone :=
  node.alone_mapGroup _

namespace Sheet

/-- Some nodes of a sheet stand in another one under new numbers. -/
def Relocates (s t : Sheet) (number : NodeId → NodeId) (ids : List NodeId) : Prop :=
  ∀ id ∈ ids, t.node? (number id) = (s.node? id).map (Node.renumber number)

section

variable {s t : Sheet} {number : NodeId → NodeId} {ids all : List NodeId}

theorem Relocates.group?_eq (h : Relocates s t number all) {id : NodeId} (hid : id ∈ all) :
    t.group? (number id) =
      (s.group? id).map fun g => { g with children := g.children.map number } := by
  rw [group?, h id hid, group?]
  cases s.node? id with
  | none => rfl
  | some node => cases node <;> rfl

theorem Relocates.children_eq (h : Relocates s t number all) {id : NodeId} (hid : id ∈ all) :
    t.children (number id) = (s.children id).map number := by
  rw [children, h.group?_eq hid, children]
  cases s.group? id <;> rfl

theorem Relocates.selectors_eq (h : Relocates s t number all) {id : NodeId} (hid : id ∈ all) :
    t.selectors (number id) = s.selectors id := by
  rw [selectors, selector?, h.group?_eq hid, selectors, selector?]
  cases s.group? id <;> rfl

/-- What is below the nodes is listed in the same order under the new numbers. -/
theorem Relocates.spans (h : Relocates s t number all) (hspans : Spans s ids all) :
    Spans t (ids.map number) (all.map number) := by
  induction hspans with
  | nil => exact .nil
  | @cons id ids below rest hbelow hrest ihbelow ihrest =>
    have hinner := ihbelow fun i hi => h i (by simp [hi])
    rw [← h.children_eq (by simp)] at hinner
    rw [List.map_append, List.map_cons, List.map_cons]
    exact .cons hinner (ihrest fun i hi => h i (by simp [hi]))

/-- Nodes that take what is below them along look the same under their new numbers. The numbers need
not be different for that, only the content is compared. -/
theorem Relocates.shows (h : Relocates s t number all)
    (hall : ∀ id ∈ all, ∀ child ∈ s.children id, child ∈ all) {os : List Outline}
    (hshows : s.Shows ids os) (hids : ids ⊆ all) : t.Shows (ids.map number) os := by
  induction hshows with
  | nil => exact .nil
  | leaf hnode hrest ih =>
    obtain ⟨hid, hids⟩ := List.cons_subset.1 hids
    refine .leaf ?_ (ih hids)
    rw [h _ hid, hnode]
    rfl
  | declaration hnode hrest ih =>
    obtain ⟨hid, hids⟩ := List.cons_subset.1 hids
    refine .declaration ?_ (ih hids)
    rw [h _ hid, hnode]
    rfl
  | @group id ids inner os hgroup hinner hrest ihinner ihrest =>
    obtain ⟨hid, hids⟩ := List.cons_subset.1 hids
    rw [List.map_cons, ← h.selectors_eq hid]
    refine .group ?_ ?_ (ihrest hids)
    · rw [h.group?_eq hid, Option.isSome_map]
      exact hgroup
    · rw [h.children_eq hid]
      exact ihinner (hall id hid)

/-- A group that takes what is below it along is written in the same way, in both layouts. For a
declaration this could fail: in compressed layout its semicolon depends on where it stands. -/
theorem Relocates.renderNode_eq (h : Relocates s t number all) (hs : s.IsForest) (ht : t.IsForest)
    (hall : ∀ id ∈ all, ∀ child ∈ s.children id, child ∈ all) {id : NodeId} (hid : id ∈ all)
    (hgroup : (s.group? id).isSome) (layout : Layout) :
    t.renderNode layout (number id) = s.renderNode layout id := by
  obtain ⟨inner, hinner⟩ := hs.exists_shows_children id
  have hshows : s.Shows [id] [.group (s.selectors id) inner] := .group hgroup hinner .nil
  have hrelocated := h.shows hall hshows (List.cons_subset.2 ⟨hid, List.nil_subset all⟩)
  rw [List.map_singleton] at hrelocated
  rw [hs.renderNode_eq_text hshows, ht.renderNode_eq_text hrelocated]
  rfl

end

/-- Old nodes keep their numbers, where none of them has changed. -/
theorem relocates_id {s t : Sheet} (hold : ∀ id < s.size, t.node? id = s.node? id) :
    Relocates s t id (List.range s.size) := by
  intro id hid
  rw [id_eq, hold id (List.mem_range.1 hid)]
  cases s.node? id with
  | none => rfl
  | some node => cases node <;> simp [Node.renumber, Node.mapGroup]

/-- Creating the content of a node alone and then adding its children under their new numbers gives
the node with its children renumbered. -/
theorem mapGroup_alone_eq_renumber {s : Sheet} {id : NodeId} {node : Node}
    (h : s.node? id = some node) (number : NodeId → NodeId) :
    (node.alone.mapGroup fun g => { g with children := g.children ++ (s.children id).map number }) =
      node.renumber number := by
  cases node with
  | leaf | declaration => rfl
  | group g => simp [Node.alone, Node.mapGroup, Node.renumber, children_of_node? h]

/-- Nodes have been copied below a group of a growing sheet, with all that is below them. -/
structure Copied (s t t' : Sheet) (number : NodeId → NodeId) (parent : NodeId)
    (ids all : List NodeId) : Prop where
  size_eq : t'.size = t.size + all.length
  node_old : ∀ i < t.size, i ≠ parent → t'.node? i = t.node? i
  node_parent : t'.node? parent =
    (t.node? parent).map (Node.mapGroup fun g => { g with children := g.children ++ ids.map number })
  relocates : Relocates s t' number all

namespace Copied

variable {s t u v : Sheet} {number : NodeId → NodeId} {parent id : NodeId}
  {ids below rest : List NodeId}

theorem nil (s t : Sheet) (number : NodeId → NodeId) (parent : NodeId) :
    Copied s t t number parent [] [] := by
  refine ⟨rfl, fun _ _ _ => rfl, ?_, fun _ hi => absurd hi List.not_mem_nil⟩
  cases t.node? parent with
  | none => rfl
  | some node => cases node <;> simp [Node.mapGroup]

/-- A node is copied, then what is below it, then what is behind it. The numbers tell the three
apart: those of the subtree lie behind the number of its top and below all later ones. -/
theorem cons {child : Node} (hchild : s.node? id = some child) (hparent : parent < t.size)
    (hnumber : number id = t.size) (hbelow_ge : ∀ i ∈ below, t.size < number i)
    (hbelow : Copied s ((t.create child.alone).2.link parent t.size (· ++ [t.size])) u number t.size
      (s.children id) below)
    (hbelow_lt : ∀ i ∈ below, number i < u.size) (hrest : Copied s u v number parent ids rest) :
    Copied s t v number parent (id :: ids) (id :: below ++ rest) := by
  have hne : parent ≠ t.size := Nat.ne_of_lt hparent
  have hsize : u.size = t.size + 1 + below.length := by
    rw [hbelow.size_eq, size_link, size_create]
  have hlt : t.size < u.size := by omega
  refine ⟨?_, fun i hi hine => ?_, ?_, ?_⟩
  · rw [hrest.size_eq, hsize]
    simp only [List.length_append, List.length_cons]
    omega
  · have hold : i < ((t.create child.alone).2.link parent t.size (· ++ [t.size])).size := by
      rw [size_link, size_create]
      exact Nat.lt_succ_of_lt hi
    rw [hrest.node_old i (Nat.lt_trans hi hlt) hine, hbelow.node_old i hold (Nat.ne_of_lt hi),
      node?_link, if_neg hine, node?_create, if_neg (Nat.ne_of_lt hi)]
  · have hold : parent < ((t.create child.alone).2.link parent t.size (· ++ [t.size])).size := by
      rw [size_link, size_create]
      exact Nat.lt_succ_of_lt hparent
    rw [hrest.node_parent, hbelow.node_old parent hold hne, node?_link, if_pos rfl, node?_create,
      if_neg hne]
    cases t.node? parent with
    | none => rfl
    | some node => cases node <;> simp [Node.mapGroup, hnumber]
  · intro i hi
    rcases List.mem_append.1 hi with hi | hi
    · rcases List.mem_cons.1 hi with rfl | hi
      · rw [hnumber, hrest.node_old _ hlt hne.symm, hbelow.node_parent, node?_link,
          if_neg hne.symm, node?_create, if_pos rfl, hchild, Option.map_some, Option.map_some,
          mapGroup_alone_eq_renumber hchild]
      · have hnew : number i ≠ parent := Nat.ne_of_gt (Nat.lt_trans hparent (hbelow_ge i hi))
        rw [hrest.node_old _ (hbelow_lt i hi) hnew]
        exact hbelow.relocates i hi
    · exact hrest.relocates i hi

end Copied

/-- The loop that copies what is below a group numbers the copies in the order of the walk, and goes
on with the rest of its stack. It takes one step for each node, so the steps that are left over are
handed on. -/
theorem Spans.copyBelow {s : Sheet} {ids all : List NodeId} (h : Spans s ids all)
    (hall : ∀ id ∈ all, id < s.size) {number : NodeId → NodeId} {t : Sheet} {parent : NodeId}
    (hold : ∀ id < s.size, t.node? id = s.node? id) (hlow : s.size ≤ parent)
    (hparent : parent < t.size) (hnumber : all.map number = List.range' t.size all.length)
    (steps : Nat) (stack : List (NodeId × NodeId)) :
    ∃ t', Copied s t t' number parent ids all ∧
      Sheet.copyBelow (all.length + steps) (ids.map (·, parent) ++ stack) t =
        Sheet.copyBelow steps stack t' := by
  induction h generalizing t parent steps stack with
  | nil => exact ⟨t, .nil s t number parent, by simp⟩
  | @cons id ids below rest hbelow hrest ihbelow ihrest =>
    have hid : id < s.size := hall id (by simp)
    obtain ⟨child, hchild⟩ := exists_node?_of_lt hid
    -- The numbers of the node, of what is below it and of what is behind it.
    have hnumbers : number id = t.size ∧ below.map number = List.range' (t.size + 1) below.length ∧
        rest.map number = List.range' (t.size + 1 + below.length) rest.length := by
      rw [List.cons_append, List.map_cons, List.length_cons, List.range'_succ, List.cons.injEq,
        List.map_append, List.length_append, ← List.range'_append_1] at hnumber
      exact ⟨hnumber.1, List.append_inj hnumber.2 (by simp)⟩
    obtain ⟨hself, hinner, hafter⟩ := hnumbers
    have hrange : ∀ i ∈ below, t.size < number i ∧ number i < t.size + 1 + below.length := by
      intro i hi
      have hmem : number i ∈ List.range' (t.size + 1) below.length :=
        hinner ▸ List.mem_map_of_mem hi
      exact List.mem_range'_1.1 hmem
    generalize hlink : (t.create child.alone).2.link parent t.size (· ++ [t.size]) = linked
    have hsize : linked.size = t.size + 1 := by rw [← hlink, size_link, size_create]
    have hle : s.size ≤ t.size := Nat.le_trans hlow (Nat.le_of_lt hparent)
    have hlinked : ∀ i < s.size, linked.node? i = s.node? i := by
      intro i hi
      rw [← hlink, node?_link, if_neg (Nat.ne_of_lt (Nat.lt_of_lt_of_le hi hlow)), node?_create,
        if_neg (Nat.ne_of_lt (Nat.lt_of_lt_of_le hi hle)), hold i hi]
    obtain ⟨u, hu, hloop⟩ := ihbelow (fun i hi => hall i (by simp [hi])) hlinked hle
      (hsize ▸ Nat.lt_succ_self _) (hsize ▸ hinner) (rest.length + steps)
      (ids.map (·, parent) ++ stack)
    have husize : u.size = t.size + 1 + below.length := by rw [hu.size_eq, hsize]
    have huold : ∀ i < s.size, u.node? i = s.node? i := by
      intro i hi
      have hi' : i < t.size := Nat.lt_of_lt_of_le hi hle
      rw [hu.node_old i (hsize ▸ Nat.lt_succ_of_lt hi') (Nat.ne_of_lt hi'), hlinked i hi]
    have hparent' : parent < u.size := by
      rw [husize, Nat.add_assoc]
      exact Nat.lt_add_right _ hparent
    obtain ⟨v, hv, hloop'⟩ := ihrest (fun i hi => hall i (by simp [hi])) huold hlow hparent'
      (husize ▸ hafter) steps stack
    refine ⟨v, .cons hchild hparent hself (fun i hi => (hrange i hi).1) (hlink ▸ hu)
      (fun i hi => husize ▸ (hrange i hi).2) hv, ?_⟩
    have hsteps : (id :: below ++ rest).length + steps =
        below.length + (rest.length + steps) + 1 := by
      simp only [List.length_append, List.length_cons]
      omega
    have hcopy : t.copyNode id = t.create child.alone := by rw [copyNode, hold id hid, hchild]
    rw [hsteps, List.map_cons, List.cons_append, Sheet.copyBelow, hcopy]
    dsimp only [create_fst]
    rw [hlink, children_congr (hlinked id hid), hloop, hloop']

/-- The number that a node gets in a copy of the subtree of a node: the copies stand behind the old
nodes, in the order of the walk. -/
def copyNumber (s : Sheet) (top id : NodeId) : NodeId :=
  s.size + (top :: s.descendants top).idxOf id

theorem copyNumber_self (s : Sheet) (top : NodeId) : s.copyNumber top top = s.size := by
  simp [copyNumber]

/-- A sheet with a copy of a node and of all that is below it, behind the nodes that it had. The
`j`-th node of the walk and the `j`-th node of the copy have the same content, and their parents
correspond. -/
structure Duplicates (s t : Sheet) (top : NodeId) : Prop where
  isForest : t.IsForest
  size_eq : t.size = s.size + 1 + (s.descendants top).length
  slots_eq : ∀ id < s.size, t.slots[id]? = s.slots[id]?
  parent_eq : t.parent? s.size = none
  descendants_eq : t.descendants s.size = List.range' (s.size + 1) (s.descendants top).length
  content_eq : ∀ j id, (top :: s.descendants top)[j]? = some id →
    (t.node? (s.size + j)).map Node.alone = (s.node? id).map Node.alone
  parents_eq : ∀ j id, (s.descendants top)[j]? = some id →
    ∃ k up, (top :: s.descendants top)[k]? = some up ∧ s.parent? id = some up ∧
      t.parent? (s.size + 1 + j) = some (s.size + k)
  render_eq : (s.group? top).isSome → ∀ layout,
    t.renderNode layout s.size = s.renderNode layout top ∧
      t.renderNode layout top = s.renderNode layout top

namespace IsForest

variable {s : Sheet} (hs : s.IsForest)
include hs

/-- With a node its children belong to the subtree that it is in. The subtree includes its top here,
which the listing of its descendants leaves out. -/
theorem mem_cons_descendants_of_mem_children {top id child : NodeId}
    (hid : id ∈ top :: s.descendants top) (hchild : child ∈ s.children id) :
    child ∈ top :: s.descendants top := by
  have hspans := hs.spans_descendants top
  refine List.mem_cons_of_mem _ ?_
  rcases List.mem_cons.1 hid with rfl | hid
  · exact hspans.subset hchild
  · exact hspans.children_subset hid hchild

/-- Every node below the top of a subtree has its parent in that subtree. -/
theorem exists_parent_of_mem_descendants {top id : NodeId} (hid : id ∈ s.descendants top) :
    ∃ up, s.parent? id = some up ∧ up ∈ top :: s.descendants top := by
  obtain ⟨up, hup, hrest⟩ := Relation.TransGen.head'_iff.1 (hs.mem_descendants_iff.1 hid)
  refine ⟨up, hup, ?_⟩
  rcases Relation.reflTransGen_iff_eq_or_transGen.1 hrest with rfl | hbelow
  · exact List.mem_cons_self
  · exact List.mem_cons_of_mem _ (hs.mem_descendants_iff.2 hbelow)

theorem copyNumber_of_getElem? {top id : NodeId} {j : Nat}
    (h : (top :: s.descendants top)[j]? = some id) : s.copyNumber top id = s.size + j := by
  obtain ⟨hj, rfl⟩ := List.getElem?_eq_some_iff.1 h
  rw [copyNumber, (hs.nodup_cons_descendants top).idxOf_getElem]

theorem map_copyNumber_descendants (top : NodeId) :
    (s.descendants top).map (s.copyNumber top) =
      List.range' (s.size + 1) (s.descendants top).length := by
  refine List.ext_getElem? fun j => ?_
  rw [List.getElem?_map]
  cases hid : (s.descendants top)[j]? with
  | none => simpa using hid
  | some id =>
    have hj : j < (s.descendants top).length := (List.getElem?_eq_some_iff.1 hid).1
    rw [Option.map_some, hs.copyNumber_of_getElem? (j := j + 1) (by simpa using hid)]
    simp [hj, Nat.add_assoc, Nat.add_comm j]

/-- A copied subtree stands under its new numbers, the next ones in the order of the walk, and no
other nodes are new. That the top exists is enough. -/
theorem relocates_copySubtree {top : NodeId} (htop : top < s.size) :
    (s.copySubtree top).2.size = s.size + 1 + (s.descendants top).length ∧
      Relocates s (s.copySubtree top).2 (s.copyNumber top) (top :: s.descendants top) := by
  obtain ⟨node, hnode⟩ := exists_node?_of_lt htop
  have hspans := hs.spans_descendants top
  have hcopy : s.copyNode top = s.create node.alone := by rw [copyNode, hnode]
  have hold : ∀ id < s.size, (s.create node.alone).2.node? id = s.node? id := fun id hid => by
    rw [node?_create, if_neg (Nat.ne_of_lt hid)]
  have hlow : ∀ id ∈ s.descendants top, id < s.size :=
    hspans.forall_mem (fun _ h => hs.lt_size_of_mem_children h)
      fun _ _ _ h => hs.lt_size_of_mem_children h
  have hnumber : (s.descendants top).map (s.copyNumber top) =
      List.range' (s.create node.alone).2.size (s.descendants top).length := by
    rw [size_create]
    exact hs.map_copyNumber_descendants top
  -- The loop may take as many steps as there are old nodes, which are more than there are to copy.
  obtain ⟨more, hmore⟩ := Nat.exists_eq_add_of_le (Nat.le_of_lt (hs.length_descendants_lt htop))
  obtain ⟨t, ht, hloop⟩ := hspans.copyBelow hlow hold (Nat.le_refl s.size) (by simp) hnumber more []
  have heq : (s.copySubtree top).2 = t := by
    have hdone : Sheet.copyBelow more [] t = t := by cases more <;> rfl
    rw [List.append_nil, ← hmore, hdone] at hloop
    rw [Sheet.copySubtree, hcopy]
    exact hloop
  rw [heq]
  refine ⟨by rw [ht.size_eq, size_create], List.forall_mem_cons.2 ⟨?_, ht.relocates⟩⟩
  rw [copyNumber_self, ht.node_parent, node?_create, if_pos rfl, hnode, Option.map_some,
    Option.map_some, mapGroup_alone_eq_renumber hnode]

/-- Each new number is that of the copy of one node of the subtree. So every slot that the copying
adds is accounted for. -/
theorem exists_copyNumber_eq {top id : NodeId} (htop : top < s.size) (hle : s.size ≤ id)
    (hlt : id < (s.copySubtree top).2.size) :
    ∃ old ∈ top :: s.descendants top, s.copyNumber top old = id := by
  obtain ⟨j, rfl⟩ := Nat.exists_eq_add_of_le hle
  rw [(hs.relocates_copySubtree htop).1, Nat.add_assoc, Nat.add_comm 1] at hlt
  have hj : j < (top :: s.descendants top).length := Nat.lt_of_add_lt_add_left hlt
  have hget := List.getElem?_eq_getElem hj
  exact ⟨_, List.getElem_mem hj, hs.copyNumber_of_getElem? hget⟩

end IsForest

/-- Copying a subtree adds an exact copy of it, which takes the next number and stands by itself.
Every old slot stays as it is; copies are numbered in the order of the walk, with corresponding
content and parents; and a group is written as its copy is. The top may be any node of the forest,
the root and detached nodes included. -/
theorem copySubtree_duplicates {s : Sheet} (hs : s.IsForest) {top : NodeId} (htop : top < s.size) :
    (s.copySubtree top).1 = s.size ∧ s.Duplicates (s.copySubtree top).2 top := by
  obtain ⟨node, hnode⟩ := exists_node?_of_lt htop
  obtain ⟨hnumber, hcopying⟩ := hs.copySubtree hnode
  obtain ⟨hsize, hrelocates⟩ := hs.relocates_copySubtree htop
  generalize (s.copySubtree top).2 = t at hcopying hsize hrelocates ⊢
  have hall : ∀ id ∈ top :: s.descendants top, ∀ child ∈ s.children id,
      child ∈ top :: s.descendants top := fun _ hid _ => hs.mem_cons_descendants_of_mem_children hid
  refine ⟨hnumber, hcopying.isForest, hsize, fun id hid => ?_, hcopying.top, ?_,
    fun j id hid => ?_, fun j id hid => ?_, fun hgroup layout => ⟨?_, ?_⟩⟩
  · rw [getElem?_slots, getElem?_slots, hcopying.node_old id hid, hcopying.parent_old id hid]
  · have hbelow := Relocates.spans (fun id hid => hrelocates id (List.mem_cons_of_mem _ hid))
      (hs.spans_descendants top)
    rw [← hrelocates.children_eq List.mem_cons_self, copyNumber_self,
      hs.map_copyNumber_descendants] at hbelow
    exact hcopying.isForest.eq_descendants_of_spans hbelow
  · rw [← hs.copyNumber_of_getElem? hid, hrelocates id (List.mem_of_getElem? hid), Option.map_map]
    exact congrArg (Option.map · (s.node? id)) (funext (Node.alone_renumber _))
  · have hid' : (top :: s.descendants top)[j + 1]? = some id := by simpa using hid
    obtain ⟨up, hup, hmem⟩ := hs.exists_parent_of_mem_descendants (List.mem_of_getElem? hid)
    obtain ⟨k, hk⟩ := List.getElem?_of_mem hmem
    refine ⟨k, up, hk, hup, hcopying.isForest.parent?_of_mem_children ?_⟩
    rw [← hs.copyNumber_of_getElem? hk, hrelocates.children_eq hmem, Nat.add_assoc, Nat.add_comm 1,
      ← hs.copyNumber_of_getElem? hid']
    exact List.mem_map_of_mem (hs.mem_children_of_parent? hup)
  · have hcopy := hrelocates.renderNode_eq hs hcopying.isForest hall List.mem_cons_self hgroup layout
    rwa [copyNumber_self] at hcopy
  · exact (relocates_id hcopying.node_old).renderNode_eq hs hcopying.isForest
      (fun _ _ _ hchild => List.mem_range.2 (hs.lt_size_of_mem_children hchild))
      (List.mem_range.2 htop) hgroup layout

theorem copySubtree_duplicates_graftedText :
    let s := parse true graftedText
    (s.IsForest ∧ 2 < s.size ∧ s.descendants 2 = [3, 4, 5] ∧
      (s.copySubtree 2).2.renderNode .compressed 8 = "b\x7bc:d;e\x7bf:g\x7d\x7d") ∧
    (s.copySubtree 2).1 = s.size ∧ s.Duplicates (s.copySubtree 2).2 2 := by
  have hforest := isForest_parse true graftedText
  have hlt : 2 < (parse true graftedText).size := by decide +kernel
  exact ⟨⟨hforest, hlt, by decide +kernel, by decide +kernel⟩, copySubtree_duplicates hforest hlt⟩

end Sheet

end Sheetsmith
