import Sheetsmith.Proofs.Sheet.Outline

namespace Sheetsmith.Sheet

/-- In `n` steps the writer turns a part of its stack into a text, whatever lies
below that part. -/
def Writes (s : Sheet) (layout : Layout) (n : Nat) (stack : List Pending) (text : String) : Prop :=
  ∀ steps rest out,
    s.write layout (n + steps) (stack ++ rest) out = s.write layout steps rest (out ++ text)

section

variable {s : Sheet} {layout : Layout}

theorem writes_nil : s.Writes layout 0 [] "" := by
  intro steps rest out
  simp

/-- A text on the stack is written in one step. -/
theorem writes_text (text : String) : s.Writes layout 1 [.text text] text := by
  intro steps rest out
  rw [Nat.add_comm, List.singleton_append, write]

/-- A node is replaced by its parts in one step, and then the parts are written. The node need not
exist: a free slot has no parts and writes nothing. -/
theorem writes_node {n : Nat} {id : NodeId} {text : String}
    (h : s.Writes layout n (s.expand layout id) text) :
    s.Writes layout (n + 1) [.node id] text := by
  intro steps rest out
  rw [Nat.add_right_comm, List.singleton_append, write, h steps rest out]

/-- Two parts of a stack are written one after the other, in as many steps as both need. This is
where the number of steps of a renderer is found to be enough. -/
theorem Writes.append {n m : Nat} {stack stack' : List Pending} {text text' : String}
    (h : s.Writes layout n stack text) (h' : s.Writes layout m stack' text') :
    s.Writes layout (n + m) (stack ++ stack') (text ++ text') := by
  intro steps rest out
  rw [Nat.add_assoc, List.append_assoc, h, h', String.append_assoc]

/-- The head of a list of children, the gap behind it and the other children. The gap takes a step
of its own, if there is one. -/
theorem writes_spaced_cons {n m : Nat} {id : NodeId} {ids : List NodeId} {o : Outline}
    {os : List Outline} {gap : String} (hempty : ids.isEmpty = os.isEmpty)
    (hhead : s.Writes layout n [.node id] (o.text layout os.isEmpty))
    (hrest : s.Writes layout m (spaced gap ids) (Outline.texts layout gap os)) :
    ∃ k ≤ n + m + 1, s.Writes layout k (spaced gap (id :: ids)) (Outline.texts layout gap (o :: os)) := by
  have hgap : ∃ k ≤ 1, s.Writes layout k (if ids.isEmpty then [] else [.text gap])
      (if os.isEmpty then "" else gap) := by
    rw [hempty]
    split
    · exact ⟨0, by omega, writes_nil⟩
    · exact ⟨1, by omega, writes_text gap⟩
  obtain ⟨k, hk, hgap⟩ := hgap
  refine ⟨n + k + m, by omega, ?_⟩
  have hsplit : spaced gap (id :: ids) =
      [.node id] ++ (if ids.isEmpty then [] else [.text gap]) ++ spaced gap ids := by
    rw [spaced_cons]
    rfl
  rw [hsplit, Outline.texts]
  exact (hhead.append hgap).append hrest

theorem Shows.isEmpty_eq {ids : List NodeId} {os : List Outline} (h : s.Shows ids os) :
    ids.isEmpty = os.isEmpty := by
  cases h <;> rfl

/-- A group is written when its children are. Only which gap stands between them depends on whether
the group has a header. -/
theorem writes_group {id : NodeId} (hgroup : (s.group? id).isSome) {n : Nat} {inner : List Outline}
    (hinner : ∀ gap, ∃ k ≤ n, s.Writes layout k (spaced gap (s.children id))
      (Outline.texts layout gap inner)) (last : Bool) :
    ∃ k ≤ n + 3, s.Writes layout k [.node id]
      ((Outline.group (s.selectors id) inner).text layout last) := by
  by_cases hselectors : (s.selectors id).isEmpty
  · obtain ⟨k, hk, hwrites⟩ := hinner layout.rootGap
    refine ⟨k + 1, by omega, writes_node ?_⟩
    rw [expand_group layout hgroup, if_pos hselectors, Outline.text, if_pos hselectors]
    exact hwrites
  · obtain ⟨k, hk, hwrites⟩ := hinner layout.blockGap
    refine ⟨1 + (k + 1) + 1, by omega, writes_node ?_⟩
    rw [expand_group layout hgroup, if_neg hselectors, Outline.text, if_neg hselectors,
      String.append_assoc]
    exact (writes_text _).append (hwrites.append (writes_text _))

end

/-- The writer turns the children of a group into the text of their outlines. It takes at most four
steps for each node: the node itself, the texts around its children and the gap behind it. This is
the bound that the writer is given, so it never runs out of steps. -/
theorem IsForest.writes_spaced {s : Sheet} (hs : s.IsForest) (layout : Layout) {ids : List NodeId}
    {os : List Outline} (hshows : s.Shows ids os) {all : List NodeId} (hspans : s.Spans ids all)
    {parent : NodeId} {front : List NodeId} (hchildren : s.children parent = front ++ ids)
    (gap : String) :
    ∃ n ≤ 4 * all.length, s.Writes layout n (spaced gap ids) (Outline.texts layout gap os) := by
  induction hshows generalizing all parent front gap with
  | nil => exact ⟨0, Nat.zero_le _, writes_nil⟩
  | @leaf id ids leaf os hnode hrest ih =>
    cases hspans with
    | @cons _ _ below rest hbelow hspans =>
      obtain ⟨m, hm, hwrites⟩ := ih hspans (by rw [hchildren, List.append_cons]) gap
      have hexpand : s.expand layout id = [.text leaf.text] := by rw [expand, hnode]
      have hhead : s.Writes layout 2 [.node id] ((Outline.leaf leaf).text layout os.isEmpty) := by
        apply writes_node
        rw [hexpand]
        exact writes_text _
      obtain ⟨k, hk, hall⟩ := writes_spaced_cons hrest.isEmpty_eq hhead hwrites
      exact ⟨k, by simp; omega, hall⟩
  | @declaration id ids d os hnode hrest ih =>
    cases hspans with
    | @cons _ _ below rest hbelow hspans =>
      obtain ⟨m, hm, hwrites⟩ := ih hspans (by rw [hchildren, List.append_cons]) gap
      have hexpand : s.expand layout id =
          [.text ((Outline.declaration d).text layout os.isEmpty)] := by
        rw [expand, hnode, ← hrest.isEmpty_eq, ← hs.isLastChild_eq hchildren]
        rfl
      have hhead : s.Writes layout 2 [.node id]
          ((Outline.declaration d).text layout os.isEmpty) := by
        apply writes_node
        rw [hexpand]
        exact writes_text _
      obtain ⟨k, hk, hall⟩ := writes_spaced_cons hrest.isEmpty_eq hhead hwrites
      exact ⟨k, by simp; omega, hall⟩
  | @group id ids inner os hgroup hinner hrest ihinner ihrest =>
    cases hspans with
    | @cons _ _ below rest hbelow hspans =>
      obtain ⟨m, hm, hwrites⟩ := ihrest hspans (by rw [hchildren, List.append_cons]) gap
      obtain ⟨n, hn, hhead⟩ := writes_group hgroup (n := 4 * below.length)
        (fun gap => ihinner hbelow (List.nil_append _).symm gap) os.isEmpty
      obtain ⟨k, hk, hall⟩ := writes_spaced_cons hrest.isEmpty_eq hhead hwrites
      exact ⟨k, by simp; omega, hall⟩

/-- The text of a whole sheet is the text of the outlines below its root. The root has no header; a
forest is all that is asked for otherwise. -/
theorem IsForest.render_eq_texts {s : Sheet} (hs : s.IsForest) (hroot : s.selectors root = [])
    {os : List Outline} (hshows : s.Shows (s.children root) os) (layout : Layout) :
    s.render layout = Outline.texts layout layout.rootGap os := by
  have hspans := hs.spans_descendants root
  obtain ⟨n, hn, hwrites⟩ := hs.writes_spaced layout hshows hspans (List.nil_append _).symm
    layout.rootGap
  have hlength := hs.length_le_size_of_spans hspans
  have hwhole : s.Writes layout (n + 1) [.node root] (Outline.texts layout layout.rootGap os) := by
    apply writes_node
    rw [expand_group layout hs.root_group, hroot]
    exact hwrites
  obtain ⟨more, hmore⟩ := Nat.exists_eq_add_of_le
    (show n + 1 ≤ 4 * s.size + 1 by omega)
  have hnil : s.write layout more [] (Outline.texts layout layout.rootGap os) =
      Outline.texts layout layout.rootGap os := by
    cases more <;> rfl
  rw [render, renderNode, hmore]
  simpa [hnil] using hwhole more [] ""

end Sheetsmith.Sheet
