import Sheetsmith.Proofs.Vendor.Around
import Sheetsmith.Proofs.Vendor.Rank

namespace Sheetsmith.Vendor

open Sheet Edit

/-- The selector of a vendor's copy of a keyframes block. -/
def copySelector (selector : String) (vendor : Vendor) : String :=
  vendor.keyframesWord ++ String.ofList (selector.toList.drop "@keyframes".length)

/-- The selectors beside a node. -/
def besideSelectors (s : Sheet) (id : NodeId) : List String :=
  (s.siblings id).filterMap s.selector?

/-- All forms that a declaration asks for are there. -/
def Settled (vendors : VendorSet) (s : Sheet) (id : NodeId) : Prop :=
  match s.keyframesAround id with
  | some (.plain keyframes) => ∀ selector, s.selector? keyframes = some selector →
    ∀ vendor ∈ keyframesOrder.filter vendors.contains,
      copySelector selector vendor ∈ besideSelectors s keyframes
  | some .vendored => True
  | none => ∀ d, s.declaration? id = some d → ∀ demand ∈ demands vendors d, demand.Met s id

/-- How many rounds a node gives work for. -/
def work (s : Sheet) (id : NodeId) : Nat :=
  match s.keyframesAround id with
  | some (.plain _) => 1
  | some .vendored => 0
  | none => ((s.declaration? id).map rank).getD 0

theorem work_le (s : Sheet) (id : NodeId) : work s id ≤ 6 := by
  unfold work
  split
  · omega
  · omega
  · cases s.declaration? id with
    | none => exact Nat.zero_le _
    | some d => exact rank_le d

section

variable {vendors : VendorSet} {s t u : Sheet} {id : NodeId}

theorem mem_besideSelectors {selector : String} :
    selector ∈ besideSelectors s id ↔
      ∃ sibling ∈ s.siblings id, s.selector? sibling = some selector :=
  List.mem_filterMap

theorem Extends.mem_besideSelectors (hs : s.IsForest) (h : Extends s t) {selector : String}
    (hmem : selector ∈ besideSelectors s id) : selector ∈ besideSelectors t id := by
  obtain ⟨sibling, hsibling, hselector⟩ := Vendor.mem_besideSelectors.1 hmem
  obtain ⟨hlt, hsibling⟩ := h.mem_siblings hs hsibling
  exact Vendor.mem_besideSelectors.2 ⟨sibling, hsibling, by rw [h.2.selector? hlt, hselector]⟩

/-- An old node is below what it was below before. -/
theorem Extends.below_of_below (hs : s.IsForest) (h : Extends s t) {top : NodeId}
    (hid : id < s.size) (hbelow : t.Below id top) : s.Below id top := by
  induction hbelow using Relation.TransGen.head_induction_on with
  | single hparent => exact .single ((h.2.parent _ hid).symm.trans hparent)
  | head hparent _ ih =>
    have hparent' := (h.2.parent _ hid).symm.trans hparent
    exact .head hparent' (ih (hs.parent_lt_size hparent'))

/-- An old node gives work for as many rounds as before. -/
theorem Extends.work_eq (hs : s.IsForest) (h : Extends s t) (hid : id < s.size) :
    work t id = work s id := by
  rw [work, work, h.2.keyframesAround hs h.1 hid, h.2.declaration? hid]

/-- What is settled stays settled. -/
theorem Settled.of_extends (h : Settled vendors s id) (hs : s.IsForest) (hextends : Extends s t)
    (hid : id < s.size) : Settled vendors t id := by
  unfold Settled at h ⊢
  rw [hextends.2.keyframesAround hs hextends.1 hid]
  cases haround : s.keyframesAround id with
  | none =>
    rw [haround] at h
    intro d hd demand hdemand
    rw [hextends.2.declaration? hid] at hd
    exact (h d hd demand hdemand).of_extends hs hextends
  | some around =>
    rw [haround] at h
    cases around with
    | vendored => trivial
    | plain keyframes =>
      intro selector hselector vendor hvendor
      obtain ⟨hbelow, hkeyframes, -⟩ := hs.keyframesAround_eq_plain haround
      obtain ⟨-, old, hold, -⟩ := keyframes?_eq_plain hkeyframes
      have hlt : keyframes < s.size := by
        obtain ⟨child, -, hparent⟩ := Relation.TransGen.tail'_iff.1 hbelow
        exact hs.parent_lt_size hparent
      rw [hextends.2.selector? hlt] at hselector
      exact hextends.mem_besideSelectors hs (h selector hselector vendor hvendor)

theorem runs_forM_of_forall {α : Type} {as : List α} {f : α → Edit Unit}
    (h : ∀ a ∈ as, Runs (f a) s () s) : Runs (as.forM f) s () s := by
  induction as with
  | nil => exact runs_forM_nil_iff.2 rfl
  | cons a as ih =>
    exact runs_forM_cons_iff.2 ⟨s, h a (by simp), ih fun b hb => h b (by simp [hb])⟩

/-- Where all forms are there, a visit changes nothing. -/
theorem Settled.runs (h : Settled vendors s id) : Runs (expandAt vendors id) s () s := by
  unfold Settled at h
  rw [expandAt, runs_get_bind_iff]
  cases haround : s.keyframesAround id with
  | none =>
    rw [haround] at h
    dsimp only
    rw [expandDeclaration_eq, runs_get_bind_iff]
    cases hd : s.declaration? id with
    | none => exact runs_pure_iff.2 ⟨rfl, rfl⟩
    | some d => exact runs_forM_of_forall fun demand hdemand => (h d hd demand hdemand).runs_meet
  | some around =>
    rw [haround] at h
    cases around with
    | vendored => exact runs_pure_iff.2 ⟨rfl, rfl⟩
    | plain keyframes =>
      dsimp only
      rw [expandKeyframes, runs_get_bind_iff]
      cases hselector : s.selector? keyframes with
      | none => exact runs_pure_iff.2 ⟨rfl, rfl⟩
      | some selector =>
        refine runs_forM_of_forall fun vendor hvendor => ?_
        have hmem := List.contains_iff_mem.2 (h selector hselector vendor hvendor)
        rw [copyKeyframes, runs_get_bind_iff]
        show Runs (if (besideSelectors s keyframes).contains (copySelector selector vendor) then
          pure () else _) s () s
        rw [if_pos hmem]
        exact runs_pure_iff.2 ⟨rfl, rfl⟩

end

end Sheetsmith.Vendor
