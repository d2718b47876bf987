import Sheetsmith.Proofs.Vendor.Demands

namespace Sheetsmith.Vendor

/-- The opacity in percent as a filter. -/
def alphaFilter (percent : Int) : String :=
  "alpha(opacity=" ++ toString percent ++ ")"

/-- The demands of a declaration, one rule of the table after the other. -/
inductive Wanted (d : Declaration) : Demand → Prop
  | renamed {forms : VendorForms} {vendors : VendorSet} {form : String}
    (hrule : VendorRule.ofProperty (Text.folded d.name) = .renamed forms)
    (hform : form ∈ forms.within vendors) : Wanted d (.named form d.value)
  | filterTwin (hrule : VendorRule.ofProperty (Text.folded d.name) = .filterTwin) :
    Wanted d (.named "-ms-filter" (quotedFilter d.value))
  | opacity (percent : Int) {name value : String}
    (hrule : VendorRule.ofProperty (Text.folded d.name) = .opacityFilters)
    (hmem : (name, value) ∈ [("-ms-filter", "\"" ++ alphaFilter percent ++ "\""),
      ("filter", alphaFilter percent), ("zoom", "1")]) : Wanted d (.present name value)
  | wrap {vendor : Vendor} {e : Declaration}
    (hrule : VendorRule.ofProperty (Text.folded d.name) = .wrapKeywords)
    (hvalue : Text.sameFold (Text.trimmed d.value) "pre-wrap" = true)
    (hmem : e ∈ wrapDeclarations vendor) : Wanted d (.present e.name e.value)
  | gradient {function form : String} {forms : VendorForms} {vendors : VendorSet}
    (hrule : VendorRule.ofProperty (Text.folded d.name) = .gradients)
    (hmem : (function, forms) ∈ gradientForms) (huses : Gradient.uses function d.value = true)
    (hform : form ∈ forms.within vendors) :
    Wanted d (.valued (Text.folded d.name) (Gradient.withForm function form d.value))
  | gradientFilter {function text : String} {forms : VendorForms}
    (hrule : VendorRule.ofProperty (Text.folded d.name) = .gradients)
    (hmem : (function, forms) ∈ gradientForms) (huses : Gradient.uses function d.value = true)
    (htext : Gradient.filter? d.value = some text) : Wanted d (.present "filter" text)

/-- What a gradient function demands is wanted by the rule of gradients. The vendors may be any. -/
theorem wanted_of_mem_gradientDemands {vendors : VendorSet} {d : Declaration} {function : String}
    {forms : VendorForms} {demand : Demand}
    (hrule : VendorRule.ofProperty (Text.folded d.name) = .gradients)
    (hmem : (function, forms) ∈ gradientForms)
    (h : demand ∈ gradientDemands vendors (Text.folded d.name) d.value function forms) :
    Wanted d demand := by
  unfold gradientDemands at h
  split at h
  · next huses =>
    rcases List.mem_append.1 h with h | h
    · obtain ⟨form, hform, rfl⟩ := List.mem_map.1 h
      exact .gradient hrule hmem huses hform
    · cases hfilter : Gradient.filter? d.value with
      | none =>
        rw [hfilter] at h
        cases h
      | some text =>
        rw [hfilter] at h
        dsimp only at h
        split at h
        · rw [List.mem_singleton.1 h]
          exact .gradientFilter hrule hmem huses hfilter
        · cases h
  · cases h

/-- What a declaration demands is wanted by one of the rules, for whatever vendors. -/
theorem wanted_of_mem_demands {vendors : VendorSet} {d : Declaration} {demand : Demand}
    (h : demand ∈ demands vendors d) : Wanted d demand := by
  unfold demands at h
  cases hrule : VendorRule.ofProperty (Text.folded d.name) with
  | renamed forms =>
    rw [hrule] at h
    obtain ⟨form, hform, rfl⟩ := List.mem_map.1 h
    exact .renamed hrule hform
  | filterTwin =>
    rw [hrule] at h
    dsimp only at h
    split at h
    · rw [List.mem_singleton.1 h]
      exact .filterTwin hrule
    · cases h
  | opacityFilters =>
    rw [hrule] at h
    dsimp only at h
    split at h
    · next percent _ =>
      split at h
      · simp only [List.mem_cons, List.not_mem_nil, or_false] at h
        rcases h with rfl | rfl | rfl
        · exact .opacity percent hrule (.head _)
        · exact .opacity percent hrule (.tail _ (.head _))
        · exact .opacity percent hrule (.tail _ (.tail _ (.head _)))
      · cases h
    · cases h
  | wrapKeywords =>
    rw [hrule] at h
    dsimp only at h
    split at h
    · next hvalue =>
      obtain ⟨e, he, rfl⟩ := List.mem_map.1 h
      obtain ⟨vendor, -, hmem⟩ := List.mem_flatMap.1 he
      exact .wrap hrule hvalue hmem
    · cases h
  | gradients =>
    rw [hrule] at h
    obtain ⟨gradient, hgradient, hmem⟩ := List.mem_flatMap.1 h
    exact wanted_of_mem_gradientDemands hrule hgradient hmem

theorem isNamed_self (name value : String) : (Declaration.mk name value).isNamed name = true := by
  simp [Declaration.isNamed, Text.sameFold]

/-- A declaration stands for itself where it is wanted. -/
theorem Wanted.clash {d : Declaration} {demand : Demand} (h : Wanted d demand) :
    demand.clash demand.declaration = true := by
  cases h with
  | renamed | filterTwin => exact isNamed_self _ _
  | opacity | wrap | gradientFilter => simp [Demand.present, isNamed_self]
  | gradient => simp [Demand.valued]

end Sheetsmith.Vendor
