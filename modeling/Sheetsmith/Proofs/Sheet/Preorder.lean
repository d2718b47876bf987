import Mathlib.Data.List.Nodup
import Mathlib.Data.List.Perm.Subperm
import Mathlib.Logic.Relation
import Sheetsmith.Proofs.Sheet.Lookup
import Sheetsmith.Sheet.Forest
import Sheetsmith.Sheet.Walk

namespace Sheetsmith.Sheet

/-- A list of nodes and the listing of them and all that is below them, each node
in front of its own descendants. -/
inductive Spans (s : Sheet) : List NodeId → List NodeId → Prop where
  | nil : Spans s [] []
  | cons {id : NodeId} {ids below rest : List NodeId} (hbelow : Spans s (s.children id) below)
      (hrest : Spans s ids rest) : Spans s (id :: ids) (id :: below ++ rest)

/-- A node lies somewhere below another one. -/
def Below (s : Sheet) (id top : NodeId) : Prop :=
  Relation.TransGen (fun child parent => s.parent? child = some parent) id top

section

variable {s : Sheet} {ids all : List NodeId}

/-- A walk with enough steps lists a stack and goes on with what is under it. Enough are as many as
the listing is long. -/
theorem Spans.walk_append (h : Spans s ids all) (steps : Nat) (stack : List NodeId) :
    s.walk (all.length + steps) (ids ++ stack) = all ++ s.walk steps stack := by
  induction h generalizing steps stack with
  | nil => simp
  | @cons id ids below rest hbelow hrest ihbelow ihrest =>
    have hsteps : (id :: below ++ rest).length + steps =
        (below.length + (rest.length + steps)) + 1 := by simp; omega
    rw [hsteps, List.cons_append, walk, ihbelow, ihrest]
    simp

theorem walk_nil (steps : Nat) : s.walk steps [] = [] := by
  cases steps <;> rfl

/-- More steps than the listing is long find nothing more. -/
theorem Spans.walk_eq (h : Spans s ids all) {steps : Nat} (hsteps : all.length ≤ steps) :
    s.walk steps ids = all := by
  obtain ⟨more, rfl⟩ := Nat.exists_eq_add_of_le hsteps
  have hwalk := h.walk_append more []
  simpa [walk_nil] using hwalk

/-- The listing holds the given nodes and the children of its own members, each as often as it is
given or is a child. -/
theorem Spans.count_eq (h : Spans s ids all) (x : NodeId) :
    all.count x = ids.count x + (all.flatMap s.children).count x := by
  induction h with
  | nil => rfl
  | cons hbelow hrest ihbelow ihrest =>
    simp only [List.cons_append, List.flatMap_cons, List.flatMap_append, List.count_cons,
      List.count_append] at ihbelow ihrest ⊢
    omega

/-- The listing holds the nodes that it was made for. -/
theorem Spans.subset (h : Spans s ids all) : ids ⊆ all := by
  intro x hx
  have hcount := h.count_eq x
  have hpos := List.count_pos_iff.2 hx
  exact List.count_pos_iff.1 (by omega)

theorem Spans.children_subset (h : Spans s ids all) {id : NodeId} (hid : id ∈ all) :
    s.children id ⊆ all := by
  intro x hx
  have hcount := h.count_eq x
  have hpos := List.count_pos_iff.2 (List.mem_flatMap.2 ⟨id, hid, hx⟩)
  exact List.count_pos_iff.1 (by omega)

/-- What holds of the given nodes and passes from a node to its children holds of the whole listing.
-/
theorem Spans.forall_mem (h : Spans s ids all) {P : NodeId → Prop} (hids : ∀ id ∈ ids, P id)
    (hchildren : ∀ id, P id → ∀ child ∈ s.children id, P child) : ∀ id ∈ all, P id := by
  induction h with
  | nil => exact hids
  | @cons id ids below rest hbelow hrest ihbelow ihrest =>
    have hid : P id := hids id (by simp)
    intro x hx
    rcases List.mem_append.1 hx with hx | hx
    · rcases List.mem_cons.1 hx with rfl | hx
      · exact hid
      · exact ihbelow (hchildren id hid) x hx
    · exact ihrest (fun i hi => hids i (by simp [hi])) x hx

end

private theorem exists_spans_of_forall {s : Sheet} {ids : List NodeId}
    (h : ∀ id ∈ ids, ∃ below, Spans s (s.children id) below) : ∃ all, Spans s ids all := by
  induction ids with
  | nil => exact ⟨[], .nil⟩
  | cons id ids ih =>
    obtain ⟨below, hbelow⟩ := h id (by simp)
    obtain ⟨rest, hrest⟩ := ih fun i hi => h i (by simp [hi])
    exact ⟨id :: below ++ rest, .cons hbelow hrest⟩

private theorem exists_bound (depth : NodeId → Nat) (n : Nat) : ∃ bound, ∀ i < n, depth i ≤ bound := by
  induction n with
  | zero => exact ⟨0, fun i hi => absurd hi (by omega)⟩
  | succ n ih =>
    obtain ⟨bound, hbound⟩ := ih
    refine ⟨bound + depth n, fun i hi => ?_⟩
    rcases Nat.lt_succ_iff_lt_or_eq.1 hi with hi | rfl
    · have := hbound i hi
      omega
    · omega

namespace IsForest

variable {s : Sheet} (hs : s.IsForest)
include hs

theorem parent?_of_mem_children {id child : NodeId} (h : child ∈ s.children id) :
    s.parent? child = some id :=
  (hs.mem_children_iff id child).1 h

theorem mem_children_of_parent? {id child : NodeId} (h : s.parent? child = some id) :
    child ∈ s.children id :=
  (hs.mem_children_iff id child).2 h

/-- Forests with the same nodes have the same parent links, since a link is there if and only if the
parent lists the child. -/
theorem eq_of_node?_eq {t : Sheet} (ht : t.IsForest) (h : ∀ id, t.node? id = s.node? id) :
    t = s := by
  have hchildren (id : NodeId) : t.children id = s.children id := by
    rw [children, children, group?, group?, h id]
  have hparent (id : NodeId) : t.parent? id = s.parent? id := by
    refine Option.ext fun parent => ?_
    rw [← ht.mem_children_iff, ← hs.mem_children_iff, hchildren]
  refine congrArg Sheet.mk (Array.ext_getElem? fun id => ?_)
  rw [getElem?_slots, getElem?_slots, h id, hparent id]

theorem lt_size_of_mem_children {id child : NodeId} (h : child ∈ s.children id) :
    child < s.size :=
  lt_size_of_parent? (hs.parent?_of_mem_children h)

theorem exists_group_of_parent? {id parent : NodeId} (h : s.parent? id = some parent) :
    ∃ g, s.group? parent = some g :=
  exists_group_of_mem_children (hs.mem_children_of_parent? h)

theorem parent_lt_size {id parent : NodeId} (h : s.parent? id = some parent) :
    parent < s.size := by
  obtain ⟨g, hg⟩ := hs.exists_group_of_parent? h
  exact lt_size_of_node? (group?_eq_some_iff.1 hg)

/-- Every list of nodes has a listing, since no chain of children is endless. The nodes may repeat,
and need not exist. -/
theorem exists_spans (ids : List NodeId) : ∃ all, Spans s ids all := by
  obtain ⟨depth, hdepth⟩ := hs.grounded
  obtain ⟨bound, hbound⟩ := exists_bound depth s.size
  have hbelow (n : Nat) : ∀ id, bound < depth id + n → ∃ below, Spans s (s.children id) below := by
    induction n with
    | zero =>
      intro id hid
      cases hchildren : s.children id with
      | nil => exact ⟨[], .nil⟩
      | cons child rest =>
        have hmem : child ∈ s.children id := by simp [hchildren]
        have hparent := hs.parent?_of_mem_children hmem
        have := hbound id (hs.parent_lt_size hparent)
        omega
    | succ n ih =>
      intro id hid
      apply exists_spans_of_forall
      intro child hchild
      have := hdepth child id (hs.parent?_of_mem_children hchild)
      exact ih child (by omega)
  exact exists_spans_of_forall fun id _ => hbelow (bound + 1) id (by omega)

private theorem count_flatMap_children (all : List NodeId) (x : NodeId) :
    (all.flatMap s.children).count x = (s.parent? x).elim 0 all.count := by
  induction all with
  | nil => cases s.parent? x <;> rfl
  | cons id all ih =>
    rw [List.flatMap_cons, List.count_append, ih]
    by_cases hx : x ∈ s.children id
    · have hparent := hs.parent?_of_mem_children hx
      rw [List.count_eq_one_of_mem (hs.nodup_children id) hx]
      simp [hparent, Nat.add_comm]
    · rw [List.count_eq_zero_of_not_mem hx]
      cases hparent : s.parent? x with
      | none => rfl
      | some parent =>
        have hne : parent ≠ id := by
          rintro rfl
          exact hx (hs.mem_children_of_parent? hparent)
        simp [List.count_cons, Ne.symm hne]

/-- Nothing is listed twice below a node: in a forest each node is a child once, and it is not below
itself. -/
theorem nodup_of_spans {id : NodeId} {all : List NodeId} (h : Spans s (s.children id) all) :
    all.Nodup := by
  obtain ⟨depth, hdepth⟩ := hs.grounded
  have hdeeper : ∀ x ∈ all, depth id < depth x := by
    refine h.forall_mem (fun x hx => hdepth x id (hs.parent?_of_mem_children hx)) ?_
    intro x hx child hchild
    exact Nat.lt_trans hx (hdepth child x (hs.parent?_of_mem_children hchild))
  have hself : all.count id = 0 :=
    List.count_eq_zero_of_not_mem fun hmem => absurd (hdeeper id hmem) (by omega)
  rw [List.nodup_iff_count_le_one]
  intro x
  -- A node occurs as often as its parent, and a child of the top node once.
  induction hx : depth x using Nat.strongRecOn generalizing x with
  | ind n ih =>
    rw [h.count_eq x, hs.count_flatMap_children]
    by_cases htop : x ∈ s.children id
    · rw [hs.parent?_of_mem_children htop, List.count_eq_one_of_mem (hs.nodup_children id) htop]
      simp [hself]
    · rw [List.count_eq_zero_of_not_mem htop, Nat.zero_add]
      cases hparent : s.parent? x with
      | none => simp
      | some parent =>
        have := hdepth x parent hparent
        exact ih (depth parent) (by omega) parent rfl

/-- A listing below a node is no longer than the sheet, so the steps of the downward walk are
enough. -/
theorem length_le_size_of_spans {id : NodeId} {all : List NodeId}
    (h : Spans s (s.children id) all) : all.length ≤ s.size := by
  have hmem : ∀ x ∈ all, x < s.size :=
    h.forall_mem (fun x hx => hs.lt_size_of_mem_children hx)
      fun x _ child hchild => hs.lt_size_of_mem_children hchild
  have hsub : all ⊆ List.range s.size := fun x hx => List.mem_range.2 (hmem x hx)
  have hle := (List.subperm_of_subset (hs.nodup_of_spans h) hsub).length_le
  rwa [List.length_range] at hle

/-- The downward walk gives the listing of what is below its start, the start being any node or
none. -/
theorem spans_descendants (id : NodeId) : Spans s (s.children id) (s.descendants id) := by
  obtain ⟨all, hall⟩ := hs.exists_spans (s.children id)
  rw [descendants, hall.walk_eq (hs.length_le_size_of_spans hall)]
  exact hall

/-- The downward walk finds exactly the nodes from which the parent links lead up to its start. The
start need not be in the tree. -/
theorem mem_descendants_iff {id top : NodeId} : id ∈ s.descendants top ↔ s.Below id top := by
  have hspans := hs.spans_descendants top
  constructor
  · intro hid
    refine hspans.forall_mem (P := fun x => s.Below x top) ?_ ?_ id hid
    · intro x hx
      exact .single (hs.parent?_of_mem_children hx)
    · intro x hx child hchild
      exact .head (hs.parent?_of_mem_children hchild) hx
  · intro hbelow
    induction hbelow using Relation.TransGen.head_induction_on with
    | single hparent => exact hspans.subset (hs.mem_children_of_parent? hparent)
    | head hparent _ ih => exact hspans.children_subset ih (hs.mem_children_of_parent? hparent)

end IsForest

end Sheetsmith.Sheet
