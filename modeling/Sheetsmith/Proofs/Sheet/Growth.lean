import Sheetsmith.Proofs.Sheet.Attach
import Sheetsmith.Sheet.Copy

namespace Sheetsmith

/-- Changing the children of a group does not change its content alone. -/
theorem Node.alone_mapGroup (f : List NodeId → List NodeId) (node : Node) :
    (node.mapGroup fun g => { g with children := f g.children }).alone = node.alone := by
  cases node <;> rfl

namespace Sheet

/-- The nodes with numbers below `n` keep their content, their parents and, among
themselves, the order of their children. Only nodes from `n` on may have come, gone
or changed. -/
structure Grows (n : NodeId) (s t : Sheet) : Prop where
  size_le : s.size ≤ t.size
  alone : ∀ id < n, (t.node? id).map Node.alone = (s.node? id).map Node.alone
  parent : ∀ id < n, t.parent? id = s.parent? id
  children : ∀ id < n, (t.children id).filter (· < n) = (s.children id).filter (· < n)

namespace Grows

variable {n : NodeId} {s t u : Sheet}

/-- A sheet that is left as it is has grown, above any number. -/
theorem refl (n : NodeId) (s : Sheet) : Grows n s s :=
  ⟨Nat.le_refl _, fun _ _ => rfl, fun _ _ => rfl, fun _ _ => rfl⟩

/-- Growth adds up, as long as both steps spare the same low numbers. -/
theorem trans (h : Grows n s t) (h' : Grows n t u) : Grows n s u where
  size_le := Nat.le_trans h.size_le h'.size_le
  alone id hid := (h'.alone id hid).trans (h.alone id hid)
  parent id hid := (h'.parent id hid).trans (h.parent id hid)
  children id hid := (h'.children id hid).trans (h.children id hid)

/-- What spares all numbers below a bound spares those below a smaller one. -/
theorem mono {m : NodeId} (h : Grows m s t) (hle : n ≤ m) : Grows n s t where
  size_le := h.size_le
  alone id hid := h.alone id (Nat.lt_of_lt_of_le hid hle)
  parent id hid := h.parent id (Nat.lt_of_lt_of_le hid hle)
  children id hid := by
    have hfilter (ids : List NodeId) : ids.filter (· < n) = (ids.filter (· < m)).filter (· < n) := by
      rw [List.filter_filter]
      apply List.filter_congr
      intro x _
      have hx : x < n → x < m := fun hx => Nat.lt_of_lt_of_le hx hle
      simpa using hx
    rw [hfilter, h.children id (Nat.lt_of_lt_of_le hid hle), ← hfilter]

/-- The content of a low node has changed, if at all, in the children of a group. Its header stays,
and so does every declaration and leaf. -/
theorem node?_cases (h : Grows n s t) {id : NodeId} (hid : id < n) :
    t.node? id = s.node? id ∨ ∃ g g', s.node? id = some (.group g) ∧
      t.node? id = some (.group g') ∧ g'.selector = g.selector := by
  have halone := h.alone id hid
  cases hs : s.node? id with
  | none =>
    rw [hs] at halone
    exact .inl (Option.map_eq_none_iff.1 halone)
  | some node =>
    rw [hs] at halone
    obtain ⟨node', ht, heq⟩ := Option.map_eq_some_iff.1 halone
    rw [ht]
    cases node with
    | leaf leaf => cases node' <;> simp_all [Node.alone]
    | declaration d => cases node' <;> simp_all [Node.alone]
    | group g =>
      cases node' with
      | leaf leaf => cases heq
      | declaration d => cases heq
      | group g' =>
        injection heq with hgroup
        injection hgroup with hselector
        exact .inr ⟨g, g', rfl, rfl, hselector⟩

/-- A low group keeps its header. Its children may still have changed, by nodes that are not low. -/
theorem selector? (h : Grows n s t) {id : NodeId} (hid : id < n) :
    t.selector? id = s.selector? id := by
  rw [Sheet.selector?, Sheet.selector?, group?, group?]
  rcases h.node?_cases hid with heq | ⟨g, g', hs, ht, hselector⟩
  · rw [heq]
  · rw [hs, ht]
    exact hselector

theorem declaration? (h : Grows n s t) {id : NodeId} (hid : id < n) :
    t.declaration? id = s.declaration? id := by
  rw [Sheet.declaration?, Sheet.declaration?]
  rcases h.node?_cases hid with heq | ⟨g, g', hs, ht, -⟩
  · rw [heq]
  · rw [hs, ht]

/-- A low node whose children have not changed has not changed. -/
theorem node?_eq (h : Grows n s t) {id : NodeId} (hid : id < n)
    (hchildren : t.children id = s.children id) : t.node? id = s.node? id := by
  rcases h.node?_cases hid with heq | ⟨g, g', hs, ht, hselector⟩
  · exact heq
  · rw [children_of_node? hs, children_of_node? ht] at hchildren
    obtain ⟨selector, children⟩ := g
    obtain ⟨selector', children'⟩ := g'
    rw [hs, ht]
    cases hselector
    cases hchildren
    rfl

/-- Among low nodes nobody gets a new child or loses one. -/
theorem mem_children_iff (h : Grows n s t) {id child : NodeId} (hid : id < n) (hchild : child < n) :
    child ∈ t.children id ↔ child ∈ s.children id := by
  have hmem : child ∈ (t.children id).filter (· < n) ↔ child ∈ (s.children id).filter (· < n) := by
    rw [h.children id hid]
  simpa [hchild] using hmem

/-- What lies below a node still does when a sheet has grown above its size: the old parent links
are all there. -/
theorem below (h : Grows s.size s t) {id top : NodeId} (hbelow : s.Below id top) :
    t.Below id top := by
  induction hbelow with
  | single hparent => exact .single ((h.parent _ (lt_size_of_parent? hparent)).trans hparent)
  | tail _ hparent ih => exact .tail ih ((h.parent _ (lt_size_of_parent? hparent)).trans hparent)

/-- A new node has a number that is not low, so creating it spares every low node. It must not bring
children along. -/
theorem create (hn : n ≤ t.size) {node : Node} (hnode : ∀ g, node = .group g → g.children = []) :
    Grows n t (t.create node).2 where
  size_le := by simp
  alone id hid := by rw [node?_create, if_neg (Nat.ne_of_lt (Nat.lt_of_lt_of_le hid hn))]
  parent id _ := parent?_create t id node
  children id _ := by rw [children_create t hnode]

/-- Attaching a node that is not low changes no low node but in the list of children. The place may
be any that keeps the order of the others. -/
theorem link {group child : NodeId} {place : List NodeId → List NodeId}
    (hgroup : (t.group? group).isSome) (hchild : child < t.size) (hn : n ≤ child)
    (hplace : Places child place) : Grows n t (t.link group child place) where
  size_le := by simp
  alone id _ := by
    rw [node?_link]
    split
    · rw [Option.map_map]
      congr 1
      funext node
      exact node.alone_mapGroup place
    · rfl
  parent id hid := by
    rw [parent?_link hchild, if_neg (Nat.ne_of_lt (Nat.lt_of_lt_of_le hid hn))]
  children id _ := by
    rw [children_link t hgroup]
    split
    · obtain ⟨front, back, hids, hplaced⟩ := hplace (t.children id)
      have hnot : ¬ child < n := Nat.not_lt.2 hn
      rw [hplaced, hids]
      simp [hnot]
    · rfl

/-- Taking out a node that is not low spares the low ones: it can be missed only in the list of
children of its parent. -/
theorem remove {id : NodeId} (hn : n ≤ id) : Grows n t (t.remove id) := by
  cases hparent : t.parent? id with
  | none =>
    rw [Sheet.remove, hparent]
    exact refl n t
  | some parent =>
    refine ⟨by simp, ?_, ?_, ?_⟩
    · intro i _
      rw [Sheet.remove, hparent]
      dsimp only
      rw [node?_modifyGroup, node?_setParent]
      split
      · rw [Option.map_map]
        congr 1
        funext node
        exact node.alone_mapGroup _
      · rfl
    · intro i hi
      rw [parent?_remove, if_neg (Nat.ne_of_lt (Nat.lt_of_lt_of_le hi hn))]
    · intro i _
      rw [children_remove hparent]
      split
      · rw [List.filter_filter]
        apply List.filter_congr
        intro x _
        have hx : x < n → x ≠ id := fun hx => Nat.ne_of_lt (Nat.lt_of_lt_of_le hx hn)
        simpa using hx
      · rfl

/-- A header may be changed where the group is not low. -/
theorem setSelector {id : NodeId} (hn : n ≤ id) (selector : Option String) :
    Grows n t (t.setSelector id selector) where
  size_le := by simp
  alone i hi := by
    rw [Sheet.setSelector, node?_modifyGroup, if_neg (Nat.ne_of_lt (Nat.lt_of_lt_of_le hi hn))]
  parent i _ := parent?_setSelector t id i selector
  children i _ := by rw [children_setSelector]

end Grows

end Sheet

end Sheetsmith
