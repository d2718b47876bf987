import Mathlib.Algebra.BigOperators.Group.Finset.Basic
import Mathlib.Algebra.GroupWithZero.Nat
import Mathlib.Algebra.Order.BigOperators.Group.Finset
import Sheetsmith.Proofs.Sheet.Document

namespace Sheetsmith.Sheet

/-- The bytes that the selector parts and the braces of a group take. -/
def headerCost (parts : List String) : Nat :=
  if parts.isEmpty then 0 else (",".intercalate parts).utf8ByteSize + 2

/-- The bytes of a declaration, with the semicolon that is left out behind a last child. -/
def declarationCost (last : Bool) (d : Declaration) : Nat :=
  d.name.utf8ByteSize + 1 + d.value.utf8ByteSize + if last then 0 else 1

/-- The bytes that a node, without what is below it, takes in compressed layout. -/
def cost (s : Sheet) (id : NodeId) : Nat :=
  match s.node? id with
  | none => 0
  | some (.leaf leaf) => leaf.text.utf8ByteSize
  | some (.declaration d) => declarationCost (s.isLastChild id) d
  | some (.group g) => headerCost (g.selector.elim [] selectorParts)

/-- The bytes of a sheet in compressed layout, as a sum over the nodes of its tree. -/
def weight (s : Sheet) : Nat :=
  ∑ id ∈ (s.descendants root).toFinset, s.cost id

theorem utf8ByteSize_text_declaration (d : Declaration) (last : Bool) :
    ((Outline.declaration d).text .compressed last).utf8ByteSize = declarationCost last d := by
  have hcolon : ":".utf8ByteSize = 1 := by decide
  have hstop : (if last then "" else ";").utf8ByteSize = if last then 0 else 1 := by
    cases last <;> decide
  simp [Outline.text, declarationCost, String.utf8ByteSize_append, hcolon, hstop]

theorem utf8ByteSize_text_group (parts : List String) (inner : List Outline) (last : Bool) :
    ((Outline.group parts inner).text .compressed last).utf8ByteSize =
      headerCost parts + (Outline.texts .compressed "" inner).utf8ByteSize := by
  have hopen : "\x7b".utf8ByteSize = 1 := by decide
  have hclose : "\x7d".utf8ByteSize = 1 := by decide
  unfold Outline.text headerCost
  split
  · simp [Layout.rootGap]
  · simp only [Layout.comma, Layout.blockOpen, Layout.blockGap, Layout.blockClose,
      String.utf8ByteSize_append, hopen, hclose]
    omega

theorem utf8ByteSize_texts_cons (o : Outline) (os : List Outline) :
    (Outline.texts .compressed "" (o :: os)).utf8ByteSize =
      (o.text .compressed os.isEmpty).utf8ByteSize +
        (Outline.texts .compressed "" os).utf8ByteSize := by
  simp [Outline.texts, String.utf8ByteSize_append]

namespace IsForest

variable {s : Sheet} (hs : s.IsForest)
include hs

/-- The text of the last children of a group takes what the nodes of its listing take one by one.
There are no gaps in compressed layout, and the cost of a declaration knows whether it is a last
child. -/
theorem utf8ByteSize_texts {ids : List NodeId} {os : List Outline} (hshows : s.Shows ids os)
    {all : List NodeId} (hspans : s.Spans ids all) {parent : NodeId} {front : List NodeId}
    (hchildren : s.children parent = front ++ ids) :
    (Outline.texts .compressed "" os).utf8ByteSize = (all.map s.cost).sum := by
  induction hshows generalizing all parent front with
  | nil =>
    cases hspans
    rfl
  | @leaf id ids leaf os hnode hrest ih =>
    cases hspans with
    | @cons _ _ below rest hbelow hspans =>
      rw [children_eq_nil_of_kind hnode (by simp [Node.kind])] at hbelow
      cases hbelow
      have hcost : s.cost id = leaf.text.utf8ByteSize := by rw [cost, hnode]
      rw [utf8ByteSize_texts_cons, ih hspans (by rw [hchildren, List.append_cons])]
      simp [hcost, Outline.text]
  | @declaration id ids d os hnode hrest ih =>
    cases hspans with
    | @cons _ _ below rest hbelow hspans =>
      rw [children_eq_nil_of_kind hnode (by simp [Node.kind])] at hbelow
      cases hbelow
      have hcost : s.cost id = declarationCost os.isEmpty d := by
        rw [cost, hnode, hs.isLastChild_eq hchildren, hrest.isEmpty_eq]
      rw [utf8ByteSize_texts_cons, ih hspans (by rw [hchildren, List.append_cons]),
        utf8ByteSize_text_declaration]
      simp [hcost]
  | @group id ids inner os hgroup hinner hrest ihinner ihrest =>
    cases hspans with
    | @cons _ _ below rest hbelow hspans =>
      obtain ⟨g, hg⟩ := Option.isSome_iff_exists.1 hgroup
      have hcost : s.cost id = headerCost (s.selectors id) := by
        rw [cost, group?_eq_some_iff.1 hg, selectors, selector?, hg]
        cases hselector : g.selector <;> simp [hselector]
      rw [utf8ByteSize_texts_cons, ihrest hspans (by rw [hchildren, List.append_cons]),
        utf8ByteSize_text_group, ihinner hbelow (List.nil_append _).symm]
      simp [hcost, Nat.add_assoc]

/-- The nodes that a weight is counted over are those below the root. The root has no header in a
document, so it takes nothing itself. -/
theorem mem_toFinset_descendants {id : NodeId} :
    id ∈ (s.descendants root).toFinset ↔ s.Below id root := by
  rw [List.mem_toFinset, hs.mem_descendants_iff]

end IsForest

/-- A document takes in compressed layout as many bytes as its weight says. In this way the length
of the text is a sum over nodes, and each pass can be charged node by node. -/
theorem IsDocument.utf8ByteSize_render {s : Sheet} (hs : s.IsDocument) :
    (s.render .compressed).utf8ByteSize = s.weight := by
  have hroot : s.selectors root = [] := by rw [selectors, hs.selector_root]
  obtain ⟨os, hshows⟩ := hs.isForest.exists_shows_children root
  have hspans := hs.isForest.spans_descendants root
  rw [hs.isForest.render_eq_texts hroot hshows, weight,
    List.sum_toFinset _ (hs.isForest.nodup_of_spans hspans)]
  exact hs.isForest.utf8ByteSize_texts hshows hspans (List.nil_append _).symm

/-- An edit does not make a sheet heavier when what it leaves in the tree was there before and, but
for one node, takes no more than before, and that node takes no more than it did before together
with nodes that have left the tree. So a shorthand may be paid for by the members that it replaces.
-/
theorem weight_le_of_charge {s t : Sheet} (hs : s.IsForest) (ht : t.IsForest) (id : NodeId)
    (gone : Finset NodeId) (hgone : ∀ i ∈ gone, s.Below i root ∧ ¬ t.Below i root)
    (hbelow : ∀ i, t.Below i root → s.Below i root)
    (hcost : ∀ i, t.Below i root → i ≠ id → t.cost i ≤ s.cost i)
    (hid : t.Below id root → t.cost id ≤ s.cost id + ∑ i ∈ gone, s.cost i) :
    t.weight ≤ s.weight := by
  have hsubset : (t.descendants root).toFinset ∪ gone ⊆ (s.descendants root).toFinset := by
    intro i hi
    rw [hs.mem_toFinset_descendants]
    rcases Finset.mem_union.1 hi with hi | hi
    · exact hbelow i (ht.mem_toFinset_descendants.1 hi)
    · exact (hgone i hi).1
  have hdisjoint : Disjoint (t.descendants root).toFinset gone := by
    rw [Finset.disjoint_left]
    intro i hi hmem
    exact (hgone i hmem).2 (ht.mem_toFinset_descendants.1 hi)
  have hkept : t.weight ≤ ∑ i ∈ (t.descendants root).toFinset, s.cost i + ∑ i ∈ gone, s.cost i := by
    rw [weight]
    by_cases hmem : t.Below id root
    · have hmem' := ht.mem_toFinset_descendants.2 hmem
      rw [← Finset.add_sum_erase _ _ hmem', ← Finset.add_sum_erase _ s.cost hmem']
      have herase : ∑ i ∈ (t.descendants root).toFinset.erase id, t.cost i ≤
          ∑ i ∈ (t.descendants root).toFinset.erase id, s.cost i := by
        refine Finset.sum_le_sum fun i hi => ?_
        obtain ⟨hne, hi⟩ := Finset.mem_erase.1 hi
        exact hcost i (ht.mem_toFinset_descendants.1 hi) hne
      have := hid hmem
      omega
    · refine Nat.le_trans (Finset.sum_le_sum fun i hi => ?_) (Nat.le_add_right _ _)
      have hi' := ht.mem_toFinset_descendants.1 hi
      refine hcost i hi' ?_
      rintro rfl
      exact hmem hi'
  rw [← Finset.sum_union hdisjoint] at hkept
  exact Nat.le_trans hkept (Finset.sum_le_sum_of_subset hsubset)

/-- An edit that leaves no new node in the tree and makes none of its nodes longer does not make the
sheet heavier. -/
theorem weight_le_of_cost_le {s t : Sheet} (hs : s.IsForest) (ht : t.IsForest)
    (hbelow : ∀ i, t.Below i root → s.Below i root)
    (hcost : ∀ i, t.Below i root → t.cost i ≤ s.cost i) : t.weight ≤ s.weight :=
  weight_le_of_charge hs ht root ∅ (by simp) hbelow (fun i hi _ => hcost i hi)
    fun hroot => by simpa using hcost root hroot

end Sheetsmith.Sheet
