import Sheetsmith.Proofs.Sheet.Building
import Sheetsmith.Proofs.Vendor.Placing

namespace Sheetsmith

namespace Vendor

open Sheet Edit

/-- What an edit started in `s` may come to: a forest in which everything of `s` is
as it was. -/
def Extends (s t : Sheet) : Prop :=
  t.IsForest ∧ Grows s.size s t

/-- What extends an extension of a sheet extends the sheet. -/
theorem Extends.trans {s t u : Sheet} (h : Extends s t) (h' : Extends t u) : Extends s u :=
  ⟨h'.1, h.2.trans (h'.2.mono h.2.size_le)⟩

theorem Extends.mem_siblings {s t : Sheet} (hs : s.IsForest) (h : Extends s t) {id sibling : NodeId}
    (hsibling : sibling ∈ s.siblings id) : sibling < s.size ∧ sibling ∈ t.siblings id := by
  rw [siblings, List.mem_filter, family] at hsibling ⊢
  cases hparent : s.parent? id with
  | none => simp [hparent] at hsibling
  | some parent =>
    rw [hparent] at hsibling
    have hlt := hs.lt_size_of_mem_children hsibling.1
    rw [h.2.parent id (lt_size_of_parent? hparent), hparent]
    exact ⟨hlt, (h.2.mem_children_iff (hs.parent_lt_size hparent) hlt).2 hsibling.1, hsibling.2⟩

/-- An edit that extends every forest it starts in keeps whatever was there before. It may also
fail, as long as the sheet it leaves extends the old one. -/
theorem maintains_of_extends {α : Type} {m : Edit α}
    (h : ∀ t : Sheet, t.IsForest → Extends t (m.final t)) (s : Sheet) :
    Maintains (Extends s) m :=
  fun t ht => ht.trans (h t ht.1)

/-- Copying a keyframes block changes nothing that was there, whether a copy finds its place or not.
What the forms inside the copy do stays below it. -/
theorem extends_copyKeyframes (id : NodeId) (selector : String) (vendor : Vendor) {s : Sheet}
    (hs : s.IsForest) : Extends s ((copyKeyframes id selector vendor).final s) := by
  rw [copyKeyframes_eq]
  have hrefl : Extends s s := ⟨hs, .refl _ _⟩
  show Extends s (final (if _ then _ else _) s)
  split
  · exact hrefl
  · rw [final, run_bind]
    cases hparent : s.parent? id with
    | none =>
      obtain ⟨t, hrun, hforest, hgrows⟩ := run_placeCopy_of_detached hs hparent selector
      rw [hrun]
      exact ⟨hforest, hgrows⟩
    | some parent =>
      obtain ⟨t, hrun, hplaced, -⟩ := run_placeCopy_of_parent hs hparent selector
      rw [Runs] at hrun
      rw [hrun]
      obtain ⟨hplaced', -⟩ := hplaced.expandCopy hs (hs.parent_lt_size hparent) vendor
      exact ⟨hplaced'.isForest, hplaced'.grows⟩

/-- A visit changes nothing that was there, whatever the number stands for. -/
theorem extends_expandAt (vendors : VendorSet) (id : NodeId) {s : Sheet} (hs : s.IsForest) :
    Extends s ((expandAt vendors id).final s) := by
  have hrefl : Extends s s := ⟨hs, .refl _ _⟩
  have hinsert (name value : String) :
      Maintains (Extends s) (insertDeclarationAfter id name value) :=
    maintains_of_extends (fun t ht => final_insertDeclarationAfter ht (Nat.le_refl _) id name value) s
  rw [expandAt, final_get_bind]
  cases s.keyframesAround id with
  | none => exact maintains_expandDeclaration hinsert vendors (by simp) s hrefl
  | some around =>
    cases around with
    | vendored => exact hrefl
    | plain keyframes =>
      dsimp only
      rw [expandKeyframes, final_get_bind]
      cases s.selector? keyframes with
      | none => exact hrefl
      | some selector =>
        refine maintains_forM (fun vendor _ => ?_) s hrefl
        exact maintains_of_extends (fun t ht => extends_copyKeyframes _ _ vendor ht) s

/-- Adding vendor forms changes nothing that was there, below whatever group it is asked for. -/
theorem extends_expand (vendors : VendorSet) (group : NodeId) {s : Sheet} (hs : s.IsForest) :
    Extends s ((expand vendors group).final s) := by
  have hvisit (id : NodeId) (_ : True) : Maintains (Extends s) (expandAt vendors id) :=
    maintains_of_extends (fun t ht => extends_expandAt vendors id ht) s
  exact maintains_visitRounds (fun _ _ _ _ => trivial) hvisit roundLimit 0 s ⟨hs, .refl _ _⟩

/-- Adding vendor forms only adds: whatever the outcome, every node keeps its content and its
parent, and the old children of every group stay in their order. The group may be any number, and
nothing is assumed about the forest and the vendors. -/
theorem expand_preserves {s : Sheet} (hs : s.IsForest) (vendors : VendorSet) (group : NodeId) :
    let t := ((expand vendors group).run.run s).2
    ∀ id < s.size, (t.node? id).map Node.alone = (s.node? id).map Node.alone ∧
      t.parent? id = s.parent? id ∧ (t.children id).filter (· < s.size) = s.children id := by
  obtain ⟨-, hgrows⟩ := extends_expand vendors group hs
  intro t id hid
  refine ⟨hgrows.alone id hid, hgrows.parent id hid, (hgrows.children id hid).trans ?_⟩
  rw [List.filter_eq_self]
  intro child hchild
  simpa using hs.lt_size_of_mem_children hchild

/-- A sheet with a keyframes block and a rule that has vendor forms. -/
def spinSheet : Sheet :=
  ofEvents [.opened (some "@keyframes spin"), .opened (some "to"),
    .declaration "transform" "none", .closed, .closed, .opened (some "a"),
    .declaration "opacity" "0.5", .closed]

theorem expand_preserves_spinSheet :
    let t := ((expand (.ofPred fun _ => true) root).run.run spinSheet).2
    ∀ id < spinSheet.size, (t.node? id).map Node.alone = (spinSheet.node? id).map Node.alone ∧
      t.parent? id = spinSheet.parent? id ∧
      (t.children id).filter (· < spinSheet.size) = spinSheet.children id :=
  expand_preserves (isForest_ofEvents _) _ root

end Vendor

end Sheetsmith
