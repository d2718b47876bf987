import Sheetsmith.Proofs.Sheet.Ancestry
import Sheetsmith.Proofs.Sheet.Cost

namespace Sheetsmith.Sheet

variable {s t u : Sheet} {id i top : NodeId}

/-- What lies below what depends on the parent links only. -/
theorem below_congr (h : ∀ i, t.parent? i = s.parent? i) : t.Below i top ↔ s.Below i top := by
  simp only [Below, h]

/-- Taking a node out puts nothing below anything that it was not below before. -/
theorem Below.of_remove (h : (s.remove id).Below i top) : s.Below i top := by
  refine Relation.TransGen.mono (fun child parent hparent => ?_) i top h
  rw [parent?_remove] at hparent
  split at hparent
  · cases hparent
  · exact hparent

theorem not_below_remove (s : Sheet) (id top : NodeId) : ¬ (s.remove id).Below id top :=
  not_below_of_parent?_eq_none (by rw [parent?_remove, if_pos rfl])

/-- What is not below the node that is taken out stays where it is. -/
theorem Below.remove (h : s.Below i top) (hne : i ≠ id) (hbelow : ¬ s.Below i id) :
    (s.remove id).Below i top := by
  induction h using Relation.TransGen.head_induction_on with
  | single hparent => exact .single (by rw [parent?_remove, if_neg hne, hparent])
  | @head i up hparent hup ih =>
    refine .head (by rw [parent?_remove, if_neg hne, hparent]) (ih ?_ fun h => ?_)
    · rintro rfl
      exact hbelow (.single hparent)
    · exact hbelow (.head hparent h)

/-- Taking a node out changes at most the child list of a group. No slot becomes free, not even that
of the node. -/
theorem node?_remove_eq_or (s : Sheet) (id i : NodeId) :
    (s.remove id).node? i = s.node? i ∨
      ∃ g children, s.node? i = some (.group g) ∧
        (s.remove id).node? i = some (.group { g with children }) := by
  cases hparent : s.parent? id with
  | none => exact .inl (by rw [Sheet.remove, hparent])
  | some parent =>
    rw [node?_remove hparent]
    by_cases hi : i = parent
    · rw [if_pos hi]
      cases s.node? i with
      | none => exact .inl rfl
      | some node =>
        cases node with
        | leaf => exact .inl rfl
        | declaration => exact .inl rfl
        | group g => exact .inr ⟨g, _, rfl, rfl⟩
    · exact .inl (if_neg hi)

/-- Where one of the other children is taken out, a last child stays the last one. A child that was
not may become it. -/
theorem isLastChild_remove (hne : i ≠ id) (h : s.isLastChild i = true) :
    (s.remove id).isLastChild i = true := by
  cases hparent : s.parent? id with
  | none =>
    rw [Sheet.remove, hparent]
    exact h
  | some parent =>
    unfold isLastChild family at h ⊢
    rw [parent?_remove, if_neg hne]
    cases hp : s.parent? i with
    | none =>
      rw [hp] at h
      exact h
    | some p =>
      rw [hp] at h
      dsimp only at h ⊢
      rw [children_remove hparent]
      split
      · obtain ⟨front, hfront⟩ := List.getLast?_eq_some_iff.1 (eq_of_beq h)
        rw [hfront, List.filter_append]
        simp [hne]
      · exact h

/-- A declaration takes no more room when neither its name nor its value does. It may lose its
semicolon, and may not get one. -/
theorem declarationCost_le {d e : Declaration} {last last' : Bool} (hlast : last = true → last' = true)
    (hname : e.name.utf8ByteSize ≤ d.name.utf8ByteSize)
    (hvalue : e.value.utf8ByteSize ≤ d.value.utf8ByteSize) :
    declarationCost last' e ≤ declarationCost last d := by
  unfold declarationCost
  cases last with
  | true =>
    rw [hlast rfl]
    simp only [if_true]
    omega
  | false =>
    cases last' <;> simp <;> omega

theorem cost_declaration {d : Declaration} (h : s.declaration? i = some d) :
    s.cost i = declarationCost (s.isLastChild i) d := by
  rw [cost, declaration?_eq_some_iff.1 h]

/-- No other node takes more room when one is taken out: a declaration may become the last one and
lose its semicolon. -/
theorem cost_remove_le (hne : i ≠ id) : (s.remove id).cost i ≤ s.cost i := by
  rcases node?_remove_eq_or s id i with hnode | ⟨g, children, hnode, hnode'⟩
  · unfold cost
    rw [hnode]
    cases s.node? i with
    | none => exact Nat.le_refl _
    | some node =>
      cases node with
      | leaf => exact Nat.le_refl _
      | group => exact Nat.le_refl _
      | declaration d =>
        exact declarationCost_le (isLastChild_remove hne) (Nat.le_refl _) (Nat.le_refl _)
  · rw [cost, cost, hnode, hnode']

/-- Which children are the last ones depends on the links between nodes only. What the nodes hold
does not matter. -/
theorem isLastChild_congr (hparent : ∀ i, t.parent? i = s.parent? i)
    (hchildren : ∀ i, t.children i = s.children i) (i : NodeId) :
    t.isLastChild i = s.isLastChild i := by
  have hfamily : t.family i = s.family i := by
    unfold family
    rw [hparent]
    simp only [hchildren]
  rw [isLastChild, hfamily, isLastChild]

theorem cost_modifyDeclaration_of_ne (hne : i ≠ id) (f : Declaration → Declaration) :
    (s.modifyDeclaration id f).cost i = s.cost i := by
  unfold cost
  rw [modifyDeclaration_eq, node?_modifyNode, if_neg hne, ← modifyDeclaration_eq,
    isLastChild_congr (parent?_modifyDeclaration s id · f) (children_modifyDeclaration s id · f)]

theorem declaration?_modifyDeclaration (s : Sheet) (id i : NodeId) (f : Declaration → Declaration) :
    (s.modifyDeclaration id f).declaration? i =
      if i = id then (s.declaration? i).map f else s.declaration? i := by
  rw [declaration?, modifyDeclaration_eq, node?_modifyNode]
  by_cases h : i = id
  · rw [if_pos h, if_pos h, declaration?]
    cases s.node? i with
    | none => rfl
    | some node => cases node <;> rfl
  · rw [if_neg h, if_neg h, declaration?]

/-- The tree of `t` is a part of the tree of `s`, and nothing in it takes more than it did there. -/
structure Slims (s t : Sheet) : Prop where
  below : ∀ i, t.Below i root → s.Below i root
  cost_le : ∀ i, t.Below i root → t.cost i ≤ s.cost i

namespace Slims

theorem refl (s : Sheet) : s.Slims s :=
  ⟨fun _ h => h, fun _ _ => Nat.le_refl _⟩

/-- What is a part of a part, and takes no more room each time, is a part of the whole. -/
theorem trans (h : s.Slims t) (h' : t.Slims u) : s.Slims u :=
  ⟨fun i hi => h.below i (h'.below i hi),
    fun i hi => Nat.le_trans (h'.cost_le i hi) (h.cost_le i (h'.below i hi))⟩

/-- A slimmer sheet has a text that is no longer. Both are forests, where the text is counted by
nodes. -/
theorem weight_le (h : s.Slims t) (hs : s.IsForest) (ht : t.IsForest) : t.weight ≤ s.weight :=
  weight_le_of_cost_le hs ht h.below h.cost_le

end Slims

/-- Taking out a node makes a sheet slimmer, also a node that is detached or does not exist. -/
theorem slims_remove (s : Sheet) (id : NodeId) : s.Slims (s.remove id) := by
  refine ⟨fun i hi => hi.of_remove, fun i hi => cost_remove_le ?_⟩
  rintro rfl
  exact not_below_remove s i root hi

/-- Taking out several nodes makes a sheet slimmer, in whatever order they are given. -/
theorem slims_removeAll (s : Sheet) (ids : List NodeId) : s.Slims (ids.foldl remove s) :=
  ids.foldlRecOn _ (.refl s) fun t ht id _ => ht.trans (slims_remove t id)

/-- A declaration that becomes no longer makes nothing else longer. The lengths are counted in bytes
of the written text. The semicolon stays as it was, since no child changes its place. -/
theorem slims_modifyDeclaration {f : Declaration → Declaration}
    (hname : ∀ d, s.declaration? id = some d → (f d).name.utf8ByteSize ≤ d.name.utf8ByteSize)
    (hvalue : ∀ d, s.declaration? id = some d → (f d).value.utf8ByteSize ≤ d.value.utf8ByteSize) :
    s.Slims (s.modifyDeclaration id f) := by
  refine ⟨fun i => (below_congr (parent?_modifyDeclaration s id · f)).1, fun i _ => ?_⟩
  by_cases hi : i = id
  · subst hi
    cases hd : s.declaration? i with
    | none =>
      have hnode : (s.modifyDeclaration i f).node? i = s.node? i := by
        rw [modifyDeclaration_eq, node?_modifyNode, if_pos rfl]
        unfold declaration? at hd
        cases hnode : s.node? i with
        | none => rfl
        | some node =>
          cases node with
          | declaration d => simp [hnode] at hd
          | _ => rfl
      unfold cost
      rw [hnode, isLastChild_congr (parent?_modifyDeclaration s i · f)
        (children_modifyDeclaration s i · f)]
    | some d =>
      have hd' : (s.modifyDeclaration i f).declaration? i = some (f d) := by
        rw [declaration?_modifyDeclaration, if_pos rfl, hd, Option.map_some]
      rw [cost_declaration hd, cost_declaration hd', isLastChild_congr
        (parent?_modifyDeclaration s i · f) (children_modifyDeclaration s i · f)]
      exact declarationCost_le (fun h => h) (hname d hd) (hvalue d hd)
  · exact Nat.le_of_eq (cost_modifyDeclaration_of_ne hi f)

end Sheetsmith.Sheet
