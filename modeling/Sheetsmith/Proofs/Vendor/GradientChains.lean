import Mathlib.Data.List.Chain
import Sheetsmith.Proofs.Sheet.ReadBack
import Sheetsmith.Proofs.Vendor.Rank

namespace Sheetsmith.Vendor

open Edit

/-- A visit to one declaration adds the other: the same property, with a gradient function in the
value as a vendor writes it. -/
def AddsGradient (d e : Declaration) : Prop :=
  VendorRule.ofProperty (Text.folded d.name) = .gradients ∧ e.name = Text.folded d.name ∧
    ∃ (vendors : VendorSet) (replace : Bool) (s t : Sheet) (id new : NodeId), s.IsForest ∧
      s.declaration? id = some d ∧ Runs (expandDeclaration vendors replace id) s () t ∧
      s.size ≤ new ∧ t.declaration? new = some e

/-- What is added is a value in which one function is written as a vendor does. The vendor may be
any of those that have a form for it. -/
theorem AddsGradient.exists_form {d e : Declaration} (h : AddsGradient d e) :
    ∃ function forms vendor form, (function, forms) ∈ gradientForms ∧
      forms.of? vendor = some form ∧ Gradient.uses function d.value = true ∧
      e.value = Gradient.withForm function form d.value := by
  obtain ⟨hrule, hname, vendors, replace, s, t, id, new, hs, hd, hrun, hnew, he⟩ := h
  rw [runs_expandDeclaration_iff hd (by simp [hrule])] at hrun
  obtain ⟨-, -, hadded⟩ := Demand.runs_forM_meet
    (fun demand hdemand => (wanted_of_mem_demands hdemand).clash) hs
    (Sheet.lt_size_of_node? (Sheet.declaration?_eq_some_iff.1 hd)) hrun
  obtain ⟨demand, hdemand, hdeclaration, -⟩ :=
    hadded new hnew (Sheet.lt_size_of_node? (Sheet.declaration?_eq_some_iff.1 he))
  obtain rfl : e = demand.declaration := Option.some.inj (he.symm.trans hdeclaration)
  cases wanted_of_mem_demands hdemand with
  | gradient _ hmem huses hform =>
    obtain ⟨vendor, -, hof⟩ := List.mem_filterMap.1 hform
    exact ⟨_, _, vendor, _, hmem, hof, huses, rfl⟩
  | gradientFilter =>
    -- The filter that draws the gradient is a property with another rule.
    rw [← hname] at hrule
    exact absurd (VendorRule.ofProperty_filter.symm.trans hrule) (by simp)
  | renamed hother | filterTwin hother | opacity _ hother | wrap hother =>
    rw [hrule] at hother
    cases hother

theorem AddsGradient.usedGradients_lt {d e : Declaration} (h : AddsGradient d e) :
    usedGradients e.value < usedGradients d.value := by
  obtain ⟨function, forms, vendor, form, hmem, hform, huses, hvalue⟩ := h.exists_form
  rw [hvalue]
  exact usedGradients_withForm_lt hmem hform huses

theorem usedGradients_le (value : String) : usedGradients value ≤ 4 :=
  List.countP_le_length

/-- Numbers that get smaller and smaller are no more than there are up to the first. -/
theorem length_le_of_pairwise_gt {ns : List Nat} {bound : Nat} (h : ns.Pairwise (· > ·))
    (hle : ∀ n ∈ ns, n ≤ bound) : ns.length ≤ bound + 1 := by
  have hsub : ns ⊆ List.range (bound + 1) :=
    fun n hn => List.mem_range.2 (Nat.lt_succ_of_le (hle n hn))
  have hnodup : ns.Nodup := h.imp fun hgt => Nat.ne_of_gt hgt
  simpa using (hnodup.subperm hsub).length_le

/-- Writing a gradient function as a vendor does makes progress: the value is another one, it uses
the function no longer, and it uses no gradient function that it did not use before. So along every
chain of declarations that are added for their gradients, fewer and fewer gradient functions are
used, and there are at most four additions. The values may be any that use the function, and each
visit may be for other vendors and in another forest. -/
theorem withForm_progresses :
    (∀ function forms vendor form value, (function, forms) ∈ gradientForms →
      forms.of? vendor = some form → Gradient.uses function value = true →
        Gradient.withForm function form value ≠ value ∧
        Gradient.uses function (Gradient.withForm function form value) = false ∧
        ∀ gradient ∈ gradientForms,
          Gradient.uses gradient.1 (Gradient.withForm function form value) = true →
            Gradient.uses gradient.1 value = true) ∧
    ∀ ds : List Declaration, ds.IsChain AddsGradient →
      (ds.map fun d => usedGradients d.value).Pairwise (· > ·) ∧ ds.length ≤ 5 := by
  refine ⟨fun function forms vendor form value hmem hform huses => ⟨fun heq => ?_,
    uses_withForm_self hmem hform, fun _ hgradient h => (uses_withForm hmem hform hgradient h).1⟩, ?_⟩
  · have hunused : Gradient.uses function (Gradient.withForm function form value) = false :=
      uses_withForm_self hmem hform
    rw [heq, huses] at hunused
    cases hunused
  · intro ds hchain
    have hpairwise : (ds.map fun d => usedGradients d.value).Pairwise (· > ·) :=
      (List.isChain_map_of_isChain _ (fun _ _ h => h.usedGradients_lt) hchain).pairwise
    refine ⟨hpairwise, ?_⟩
    have hle : ∀ n ∈ ds.map fun d => usedGradients d.value, n ≤ 4 := by
      intro n hn
      obtain ⟨d, -, rfl⟩ := List.mem_map.1 hn
      exact usedGradients_le d.value
    simpa using length_le_of_pairwise_gt hpairwise hle

/-- A value with two gradients. -/
def layered : String :=
  "linear-gradient(to right),Radial-Gradient(a)"

/-- The value with its first gradient as a vendor writes it. -/
def layeredOnce : String :=
  "-webkit-linear-gradient(left),Radial-Gradient(a)"

/-- The value with both gradients as a vendor writes them. -/
def layeredTwice : String :=
  "-webkit-linear-gradient(left),-webkit-radial-gradient(a)"

/-- What a visit to the only declaration of a sheet adds first. This shows of given declarations
that the relation is inhabited. -/
theorem addsGradient_of_only {d e : Declaration}
    (hrule : VendorRule.ofProperty (Text.folded d.name) = .gradients ∧ e.name = Text.folded d.name)
    (hvisit : let s := Sheet.ofEvents [.declaration d.name d.value]
      let run := (expandDeclaration (.only .webkit) false 1).run.run s
      s.declaration? 1 = some d ∧ run.1 = .ok () ∧ run.2.declaration? 2 = some e) :
    AddsGradient d e := by
  obtain ⟨hd, hrun, he⟩ := hvisit
  exact ⟨hrule.1, hrule.2, .only .webkit, false, _, _, 1, 2, Sheet.isForest_ofEvents _, hd,
    Prod.ext hrun rfl, Nat.le_refl _, he⟩

theorem withForm_progresses_layered :
    (Gradient.uses "linear-gradient" layered = true ∧
      Gradient.withForm "linear-gradient" "-webkit-linear-gradient" layered = layeredOnce) ∧
    (layeredOnce ≠ layered ∧ Gradient.uses "linear-gradient" layeredOnce = false) ∧
    [⟨"Background", layered⟩, ⟨"background", layeredOnce⟩,
      ⟨"background", layeredTwice⟩].IsChain AddsGradient ∧
    [usedGradients layered, usedGradients layeredOnce, usedGradients layeredTwice].Pairwise
      (· > ·) := by
  obtain ⟨hprogress, hchains⟩ := withForm_progresses
  have hfacts : Gradient.uses "linear-gradient" layered = true ∧
      Gradient.withForm "linear-gradient" "-webkit-linear-gradient" layered = layeredOnce := by
    decide +kernel
  obtain ⟨hne, hunused, -⟩ := hprogress "linear-gradient" _ .webkit "-webkit-linear-gradient"
    layered List.mem_cons_self rfl hfacts.1
  rw [hfacts.2] at hne hunused
  have hchain : [⟨"Background", layered⟩, ⟨"background", layeredOnce⟩,
      ⟨"background", layeredTwice⟩].IsChain AddsGradient := by
    refine .cons_cons ?_ (.cons_cons ?_ (.singleton _))
    · exact addsGradient_of_only (by decide +kernel) (by decide +kernel)
    · exact addsGradient_of_only (by decide +kernel) (by decide +kernel)
  exact ⟨hfacts, ⟨hne, hunused⟩, hchain, (hchains _ hchain).1⟩

end Sheetsmith.Vendor
