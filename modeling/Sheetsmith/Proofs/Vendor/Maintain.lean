import Sheetsmith.Proofs.Sheet.Running
import Sheetsmith.Vendor.Expand

namespace Sheetsmith

namespace Edit

open Vendor

section

variable {holds : Sheet → Prop} {id : NodeId}
  (hinsert : ∀ name value, Maintains holds (insertDeclarationAfter id name value))
include hinsert

theorem maintains_insertUnless (clash : Declaration → Bool) (name value : String) :
    Maintains holds (insertUnless clash id name value) := by
  apply maintains_get_bind
  intro s hs
  split
  · exact hs
  · exact (hinsert name value).bind (fun _ => maintains_pure true) s hs

theorem maintains_insertUnlessPresent (name value : String) :
    Maintains holds (insertUnlessPresent id name value) :=
  (maintains_insertUnless hinsert _ name value).bind fun _ => maintains_pure ()

/-- Adding the vendors' names of a declaration keeps what the insertions behind it keep. -/
theorem maintains_addRenamed (value : String) (names : List String) :
    Maintains holds (addRenamed id value names) := by
  apply maintains_foldlM
  intro added name _
  exact (maintains_insertUnless hinsert _ name value).bind fun _ => maintains_pure _

/-- Adding filters for an opacity keeps what the insertions keep, also where the value is no number.
-/
theorem maintains_addOpacityFilters (vendors : VendorSet) (value : String) :
    Maintains holds (addOpacityFilters vendors id value) := by
  have hpresent := maintains_insertUnlessPresent hinsert
  unfold addOpacityFilters
  split
  · split
    · exact (hpresent _ _).bind fun _ => (hpresent _ _).bind fun _ => hpresent _ _
    · exact maintains_pure ()
  · exact maintains_pure ()

theorem maintains_addWrapKeywords (vendors : VendorSet) (value : String) :
    Maintains holds (addWrapKeywords vendors id value) := by
  unfold addWrapKeywords
  split
  · exact maintains_forM fun d _ => maintains_insertUnlessPresent hinsert d.name d.value
  · exact maintains_pure ()

/-- Adding the forms of a gradient function keeps what the insertions keep. The vendors and the
forms may be any. -/
theorem maintains_addGradient (vendors : VendorSet) (name value function : String)
    (forms : VendorForms) :
    Maintains holds (addGradient vendors id name value function forms) := by
  unfold addGradient
  split
  · apply Maintains.bind
    · apply maintains_forM
      intro form _
      exact (maintains_insertUnless hinsert _ name _).bind fun _ => maintains_pure ()
    · intro _
      split
      · split
        · exact maintains_insertUnlessPresent hinsert _ _
        · exact maintains_pure ()
      · exact maintains_pure ()
  · exact maintains_pure ()

/-- Adding the forms of a declaration keeps whatever the insertions behind it keep and, if the
declaration gives way to its forms, its removal once a form was added keeps. -/
theorem maintains_expandDeclaration (vendors : VendorSet) {replace : Bool}
    (hremove : replace = true → ∀ value names s t, holds s → holds t →
      Runs (addRenamed id value names) s true t → holds (t.remove id)) :
    Maintains holds (expandDeclaration vendors replace id) := by
  apply maintains_get_bind
  intro s hs
  cases s.declaration? id with
  | none => exact hs
  | some d =>
    dsimp only
    cases VendorRule.ofProperty (Text.folded d.name) with
    | renamed forms =>
      have hadds := maintains_addRenamed hinsert d.value (forms.within vendors) s hs
      rw [final] at hadds ⊢
      rw [run_bind]
      rcases hrun : (addRenamed id d.value (forms.within vendors)).run.run s with ⟨r, t⟩
      rw [hrun] at hadds
      cases r with
      | error e => exact hadds
      | ok added =>
        cases hgone : added && replace with
        | false =>
          dsimp only
          rw [hgone]
          exact hadds
        | true =>
          dsimp only
          rw [hgone]
          obtain ⟨rfl, hreplace⟩ := Bool.and_eq_true_iff.1 hgone
          exact hremove hreplace _ _ s t hs hadds hrun
    | filterTwin =>
      dsimp only
      split
      · exact (maintains_insertUnless hinsert _ _ _).bind (fun _ => maintains_pure ()) s hs
      · exact hs
    | opacityFilters => exact maintains_addOpacityFilters hinsert vendors d.value s hs
    | wrapKeywords => exact maintains_addWrapKeywords hinsert vendors d.value s hs
    | gradients =>
      exact maintains_forM (fun gradient _ => maintains_addGradient hinsert vendors _ _ _ _) s hs

end

/-- Rounds of visits keep what a visit keeps, if that tells of every node that may come up what the
visit needs to know. Any round may be the last one, and any visit may fail. -/
theorem maintains_visitRounds {holds : Sheet → Prop} {visit : NodeId → Edit Unit} {group : NodeId}
    {fits : NodeId → Prop} (hfits : ∀ s, holds s → ∀ id ∈ s.declarations group, fits id)
    (hvisit : ∀ id, fits id → Maintains holds (visit id)) (rounds : Nat) (first : NodeId) :
    Maintains holds (visitRounds visit group rounds first) := by
  induction rounds generalizing first with
  | zero => exact maintains_pure ()
  | succ rounds ih =>
    apply maintains_get_bind
    intro s hs
    dsimp only
    split
    · exact hs
    · refine (maintains_forM fun id hid => ?_).bind (fun _ => ih s.size) s hs
      exact hvisit id (hfits s hs id (List.mem_filter.1 hid).1)

end Edit

end Sheetsmith
