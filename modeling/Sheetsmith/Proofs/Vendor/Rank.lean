import Sheetsmith.Proofs.Vendor.FilterText
import Sheetsmith.Proofs.Vendor.Gradients
import Sheetsmith.Proofs.Vendor.Table
import Sheetsmith.Proofs.Vendor.Wanted

namespace Sheetsmith.Vendor

/-- How many rounds the gradients of a value give work for. -/
def gradientRank (value : String) : Nat :=
  -- One round for each function that is used, and one for the twin of the filter.
  let used := gradientForms.countP fun gradient => Gradient.uses gradient.1 value
  if used = 0 then 0 else used + 1

/-- How many rounds a declaration gives work for. -/
def rank (d : Declaration) : Nat :=
  match VendorRule.ofProperty (Text.folded d.name) with
  | .renamed _ => gradientRank d.value + 1
  | .filterTwin => gradientRank (quotedFilter d.value) + 1
  | .opacityFilters => 2
  | .wrapKeywords => if Text.sameFold (Text.trimmed d.value) "pre-wrap" then 2 else 0
  | .gradients => gradientRank d.value

/-- Four gradient functions and the twin of a filter make five rounds at most. -/
theorem gradientRank_le (value : String) : gradientRank value ≤ 5 := by
  have hle : gradientForms.countP (fun gradient => Gradient.uses gradient.1 value) ≤ 4 :=
    List.countP_le_length
  unfold gradientRank
  dsimp only
  split <;> omega

theorem rank_le (d : Declaration) : rank d ≤ 6 := by
  unfold rank
  split
  · exact Nat.succ_le_succ (gradientRank_le _)
  · exact Nat.succ_le_succ (gradientRank_le _)
  · omega
  · split <;> omega
  · exact Nat.le_succ_of_le (gradientRank_le _)

/-- A value without a character that all gradient functions have gives no work. The character is
looked for in either letter case. -/
theorem gradientRank_eq_zero {value : String} {x : Char}
    (hx : ∀ gradient ∈ gradientForms, x ∈ gradient.1.toList)
    (h : ∀ c ∈ value.toList, c.toLower ≠ x.toLower) : gradientRank value = 0 := by
  have hnone : gradientForms.countP (fun gradient => Gradient.uses gradient.1 value) = 0 := by
    rw [List.countP_eq_zero]
    intro gradient hmem huses
    rw [Gradient.uses_eq_calls (Gradient.callable_of_mem hmem)] at huses
    obtain ⟨c, hc, hlower⟩ := Gradient.exists_mem_of_calls (hx gradient hmem) huses
    exact h c hc hlower
  rw [gradientRank, hnone]
  rfl

/-- All gradient functions have a `g` in their names. -/
theorem gradientRank_of_no_g {value : String} (h : ∀ c ∈ value.toList, c.toLower ≠ 'g') :
    gradientRank value = 0 :=
  gradientRank_eq_zero (fun _ hmem => (Gradient.callable_of_mem hmem).mem_g) h

/-- All gradient functions have a hyphen in their names. -/
theorem gradientRank_of_no_hyphen {value : String} (h : '-' ∉ value.toList) :
    gradientRank value = 0 := by
  refine gradientRank_eq_zero (fun _ hmem => (Gradient.callable_of_mem hmem).mem_hyphen) ?_
  intro c hc hlower
  obtain rfl := Gradient.eq_hyphen_of_case (.inl hlower)
  exact h hc

/-- The twin of a filter has the value between two quotes of one kind. -/
theorem toList_quotedFilter (value : String) : ∃ quote, (quote = '"' ∨ quote = '\x27') ∧
    (quotedFilter value).toList = quote :: value.toList ++ [quote] := by
  unfold quotedFilter
  split
  · exact ⟨'"', .inl rfl, by simp⟩
  · exact ⟨'\x27', .inr rfl, by simp⟩

/-- Fewer members of a list have a property that says more, if one of them is lost. -/
theorem countP_lt_countP {α : Type} {p q : α → Bool} {as : List α} {a : α}
    (h : ∀ x ∈ as, p x = true → q x = true) (ha : a ∈ as) (hp : p a = false) (hq : q a = true) :
    as.countP p < as.countP q := by
  obtain ⟨before, after, rfl⟩ := List.append_of_mem ha
  have hbefore : before.countP p ≤ before.countP q :=
    List.countP_mono_left fun x hx => h x (by simp [hx])
  have hafter : after.countP p ≤ after.countP q :=
    List.countP_mono_left fun x hx => h x (by simp [hx])
  simp only [List.countP_append, List.countP_cons, hp, hq, Bool.false_eq_true, if_false, if_true]
  omega

/-- The vendors' forms of gradient functions start with a hyphen and have no boundary in them. -/
theorem spelling_gradientForms : ∀ gradient ∈ gradientForms,
    ∀ form ∈ Vendor.all.filterMap gradient.2.of?, form.toList.head? = some '-' ∧
      form.toList.any Gradient.isBoundary = false := by
  decide +kernel

/-- A value that uses a gradient function gives work for two rounds at least. -/
theorem gradientRank_of_uses {function value : String} {forms : VendorForms}
    (hmem : (function, forms) ∈ gradientForms) (huses : Gradient.uses function value = true) :
    2 ≤ gradientRank value := by
  have hpos : 0 < gradientForms.countP fun gradient => Gradient.uses gradient.1 value :=
    List.countP_pos_iff.2 ⟨_, hmem, huses⟩
  unfold gradientRank
  dsimp only
  rw [if_neg (Nat.ne_of_gt hpos)]
  omega

/-- How many of the gradient functions a value uses. -/
def usedGradients (value : String) : Nat :=
  gradientForms.countP fun gradient => Gradient.uses gradient.1 value

/-- A vendor's form of a gradient function uses no gradient function that the value did not use, nor
the one that it replaces. -/
theorem uses_withForm {function form value other : String} {forms otherForms : VendorForms}
    {vendor : Vendor} (hmem : (function, forms) ∈ gradientForms) (hform : forms.of? vendor = some form)
    (hother : (other, otherForms) ∈ gradientForms)
    (h : Gradient.uses other (Gradient.withForm function form value) = true) :
    Gradient.uses other value = true ∧ other ≠ function := by
  obtain ⟨hhead, hspelling⟩ := spelling_gradientForms _ hmem form
    (List.mem_filterMap.2 ⟨vendor, by cases vendor <;> decide, hform⟩)
  exact Gradient.uses_of_uses_withForm (Gradient.callable_of_mem hmem)
    (Gradient.callable_of_mem hother) (by simpa using hspelling) hhead h

/-- A function that is written as a vendor does is used no longer. Whether the value used it at all
does not matter. -/
theorem uses_withForm_self {function form value : String} {forms : VendorForms} {vendor : Vendor}
    (hmem : (function, forms) ∈ gradientForms) (hform : forms.of? vendor = some form) :
    Gradient.uses function (Gradient.withForm function form value) = false :=
  Bool.eq_false_iff.2 fun h => (uses_withForm hmem hform hmem h).2 rfl

/-- A vendor's form leaves fewer gradients in a value. The value must use the function, or nothing
would be lost. -/
theorem usedGradients_withForm_lt {function form value : String} {forms : VendorForms}
    {vendor : Vendor} (hmem : (function, forms) ∈ gradientForms) (hform : forms.of? vendor = some form)
    (huses : Gradient.uses function value = true) :
    usedGradients (Gradient.withForm function form value) < usedGradients value :=
  countP_lt_countP (fun _ hgradient h => (uses_withForm hmem hform hgradient h).1) hmem
    (uses_withForm_self hmem hform) huses

theorem gradientRank_withForm_lt {function form value : String} {forms : VendorForms}
    {vendors : VendorSet} (hmem : (function, forms) ∈ gradientForms)
    (hform : form ∈ forms.within vendors) (huses : Gradient.uses function value = true) :
    gradientRank (Gradient.withForm function form value) < gradientRank value := by
  obtain ⟨vendor, -, hof⟩ := List.mem_filterMap.1 hform
  have hlt := usedGradients_withForm_lt hmem hof huses
  unfold usedGradients at hlt
  unfold gradientRank
  dsimp only
  split <;> split <;> omega

/-- A declaration under a vendor's name gives work for its gradients only. -/
theorem rank_of_hyphen {name : String} (h : name.toList.head? = some '-') (value : String) :
    rank ⟨name, value⟩ = gradientRank value := by
  rw [rank, VendorRule.ofProperty_of_hyphen h]

/-- A renamed declaration without gradients gives work for one round. A letter `g` is what every
gradient function has. -/
theorem rank_of_renamed {name value : String} {forms : VendorForms}
    (hrule : VendorRule.ofProperty (Text.folded name) = .renamed forms)
    (hvalue : ∀ c ∈ value.toList, c.toLower ≠ 'g') : rank ⟨name, value⟩ = 1 := by
  rw [rank, hrule]
  exact congrArg (· + 1) (gradientRank_of_no_g hvalue)

/-- A filter gives work for its twin, and that for its gradients. -/
theorem rank_filter (value : String) :
    rank ⟨"filter", value⟩ = gradientRank (quotedFilter value) + 1 := by
  have hrule : VendorRule.ofProperty (Text.folded "filter") = .filterTwin := by decide +kernel
  rw [rank, hrule]

theorem forall_mem_quoted {p : Char → Prop} {quote : Char} {cs : List Char} (hquote : p quote)
    (h : ∀ c ∈ cs, p c) : ∀ c ∈ quote :: cs ++ [quote], p c := by
  intro c hc
  rw [List.mem_append, List.mem_cons, List.mem_singleton] at hc
  rcases hc with (rfl | hc) | rfl
  · exact hquote
  · exact h c hc
  · exact hquote

/-- What holds of the two quotes and of a value holds of the value as one string. -/
theorem forall_mem_quotedFilter {p : Char → Prop} {value : String} (hdouble : p '"')
    (hsingle : p '\x27') (h : ∀ c ∈ value.toList, p c) :
    ∀ c ∈ (quotedFilter value).toList, p c := by
  obtain ⟨quote, hquote, htext⟩ := toList_quotedFilter value
  rw [htext]
  rcases hquote with rfl | rfl
  · exact forall_mem_quoted hdouble h
  · exact forall_mem_quoted hsingle h

theorem gradientRank_quotedFilter_of_no_hyphen {value : String} (h : '-' ∉ value.toList) :
    gradientRank (quotedFilter value) = 0 := by
  apply gradientRank_of_no_hyphen
  have hne : ∀ c ∈ (quotedFilter value).toList, c ≠ '-' := by
    refine forall_mem_quotedFilter (by decide) (by decide) ?_
    rintro c hc rfl
    exact h hc
  exact fun hmem => hne '-' hmem rfl

theorem toLower_repr {n : Nat} {c : Char} (h : c ∈ (Nat.repr n).toList) : c.toLower ≠ 'g' := by
  have hdigit := Nat.isDigit_of_mem_toDigits (by decide) (by decide)
    (show c ∈ Nat.toDigits 10 n by simpa [Nat.repr] using h)
  have hle : 48 ≤ c.toNat ∧ c.toNat ≤ 57 := by
    simpa [Char.isDigit, UInt32.le_iff_toNat_le] using hdigit
  have hupper : c.isUpper = false := by
    rw [Bool.eq_false_iff, ne_eq, Text.isUpper_iff]
    omega
  rw [Text.toLower_of_isUpper_eq_false hupper]
  rintro rfl
  cases hdigit

/-- Nor is there one in the filter for an opacity. -/
theorem toLower_alphaFilter {percent : Int} {c : Char} (h : c ∈ (alphaFilter percent).toList) :
    c.toLower ≠ 'g' := by
  simp only [alphaFilter, String.toList_append, List.mem_append] at h
  rcases h with (h | h) | h
  · have hword : ∀ c ∈ "alpha(opacity=".toList, c.toLower ≠ 'g' :=
      Text.forall_mem_of_all (by decide +kernel)
    exact hword c h
  · cases percent with
    | ofNat n => exact toLower_repr h
    | negSucc n =>
      rcases List.mem_append.1 (String.toList_append ▸ h) with h | h
      · rw [List.mem_singleton.1 h]
        decide
      · exact toLower_repr h
  · rw [List.mem_singleton.1 h]
    decide

/-- The filters for an opacity use no gradient, but `filter` and `zoom` have forms of their own. -/
theorem rank_opacity {percent : Int} {name value : String}
    (h : (name, value) ∈ [("-ms-filter", "\"" ++ alphaFilter percent ++ "\""),
      ("filter", alphaFilter percent), ("zoom", "1")]) : rank ⟨name, value⟩ < 2 := by
  simp only [List.mem_cons, Prod.mk.injEq, List.not_mem_nil, or_false] at h
  rcases h with ⟨rfl, rfl⟩ | ⟨rfl, rfl⟩ | ⟨rfl, rfl⟩
  · have hquoted : ("\"" ++ alphaFilter percent ++ "\"").toList =
        '"' :: (alphaFilter percent).toList ++ ['"'] := by simp
    rw [rank_of_hyphen (by decide +kernel), gradientRank_of_no_g]
    · omega
    · rw [hquoted]
      exact forall_mem_quoted (by decide) fun c hc => toLower_alphaFilter hc
  · rw [rank_filter, gradientRank_of_no_g]
    · omega
    · exact forall_mem_quotedFilter (by decide) (by decide) fun c hc => toLower_alphaFilter hc
  · have hrule : VendorRule.ofProperty (Text.folded "zoom") =
        .renamed ⟨none, none, none, some "-ms-zoom"⟩ := by decide +kernel
    rw [rank_of_renamed hrule (Text.forall_mem_of_all (by decide +kernel))]
    omega

/-- A vendor's keyword is not wrapped again, but `word-wrap` has a form of its own. -/
theorem rank_wrap {vendor : Vendor} {d : Declaration} (h : d ∈ wrapDeclarations vendor) :
    rank d < 2 := by
  have hspace (value : String) (hvalue : Text.sameFold (Text.trimmed value) "pre-wrap" = false) :
      rank ⟨"white-space", value⟩ < 2 := by
    have hrule : VendorRule.ofProperty (Text.folded "white-space") = .wrapKeywords := by
      decide +kernel
    rw [rank, hrule]
    dsimp only
    rw [hvalue]
    decide
  have hword : rank ⟨"word-wrap", "break-word"⟩ < 2 := by
    have hrule : VendorRule.ofProperty (Text.folded "word-wrap") =
        .renamed ⟨none, none, none, some "-ms-word-wrap"⟩ := by decide +kernel
    rw [rank_of_renamed hrule (Text.forall_mem_of_all (by decide +kernel))]
    omega
  cases vendor with
  | mozilla | webkit =>
    rw [List.mem_singleton.1 h]
    exact hspace _ (by decide +kernel)
  | opera =>
    rcases List.mem_cons.1 h with rfl | h
    · exact hspace _ (by decide +kernel)
    · rw [List.mem_singleton.1 h]
      exact hspace _ (by decide +kernel)
  | msie =>
    rw [List.mem_singleton.1 h]
    exact hword

/-- What a declaration wants gives work for fewer rounds than the declaration itself. This is why
the rounds run dry. -/
theorem Wanted.rank_lt {d : Declaration} {demand : Demand} (h : Wanted d demand) :
    rank demand.declaration < rank d := by
  cases h with
  | renamed hrule hform =>
    have hhead := VendorRule.head_form_of_ofProperty hrule hform
    rw [Demand.named, rank_of_hyphen hhead, rank, hrule]
    exact Nat.lt_succ_self _
  | filterTwin hrule =>
    rw [Demand.named, rank_of_hyphen (by decide +kernel), rank, hrule]
    exact Nat.lt_succ_self _
  | opacity percent hrule hmem =>
    rw [show rank d = 2 by rw [rank, hrule]]
    exact rank_opacity hmem
  | wrap hrule hvalue hmem =>
    have hrank : rank d = 2 := by
      rw [rank, hrule]
      exact if_pos hvalue
    rw [hrank]
    exact rank_wrap hmem
  | gradient hrule hmem huses hform =>
    have hrank (value : String) : rank ⟨Text.folded d.name, value⟩ = gradientRank value := by
      rw [rank, Text.folded_folded, hrule]
    rw [Demand.valued, hrank, rank, hrule]
    exact gradientRank_withForm_lt hmem hform huses
  | gradientFilter hrule hmem huses htext =>
    have hzero := gradientRank_quotedFilter_of_no_hyphen (Gradient.hyphen_not_mem_filter htext)
    rw [Demand.present, rank_filter, hzero, rank, hrule]
    exact gradientRank_of_uses hmem huses

end Sheetsmith.Vendor
