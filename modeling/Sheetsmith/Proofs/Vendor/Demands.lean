import Sheetsmith.Proofs.Vendor.Additive

namespace Sheetsmith

/-- A declaration that is wanted beside another one, and what stands for it. -/
structure Demand where
  declaration : Declaration
  clash : Declaration → Bool

namespace Demand

/-- Any declaration of the property will do. -/
def named (name value : String) : Demand :=
  ⟨⟨name, value⟩, (·.isNamed name)⟩

/-- Only the same declaration will do. -/
def present (name value : String) : Demand :=
  ⟨⟨name, value⟩, fun d => d.isNamed name && d.value == value⟩

/-- Any declaration of the value will do. -/
def valued (name value : String) : Demand :=
  ⟨⟨name, value⟩, (·.value == value)⟩

/-- Adds what is wanted beside a node, unless something stands for it. -/
def meet (id : NodeId) (demand : Demand) : Edit Unit := do
  let _ ← Edit.insertUnless demand.clash id demand.declaration.name demand.declaration.value

/-- Something beside the node stands for what is wanted. -/
def Met (s : Sheet) (id : NodeId) (demand : Demand) : Prop :=
  ∃ sibling ∈ s.siblings id, ∃ d, s.declaration? sibling = some d ∧ demand.clash d = true

end Demand

namespace Vendor

open Sheet Edit Demand

/-- The demands of a gradient function in a value. -/
def gradientDemands (vendors : VendorSet) (name value function : String) (forms : VendorForms) :
    List Demand :=
  if Gradient.uses function value then
    ((forms.within vendors).map fun form => .valued name (Gradient.withForm function form value)) ++
      match Gradient.filter? value with
      | some filter => if vendors.msie then [.present "filter" filter] else []
      | none => []
  else []

/-- What a declaration wants beside it. -/
def demands (vendors : VendorSet) (d : Declaration) : List Demand :=
  match VendorRule.ofProperty (Text.folded d.name) with
  | .renamed forms => (forms.within vendors).map (.named · d.value)
  | .filterTwin => if vendors.msie then [.named "-ms-filter" (quotedFilter d.value)] else []
  | .opacityFilters =>
    match opacityPercent? d.value with
    | some percent =>
      if vendors.msie then
        let alpha := "alpha(opacity=" ++ toString percent ++ ")"
        [.present "-ms-filter" ("\"" ++ alpha ++ "\""), .present "filter" alpha, .present "zoom" "1"]
      else []
    | none => []
  | .wrapKeywords =>
    if Text.sameFold (Text.trimmed d.value) "pre-wrap" then
      (vendors.toList.flatMap wrapDeclarations).map fun d => .present d.name d.value
    else []
  | .gradients =>
    gradientForms.flatMap fun (function, forms) =>
      gradientDemands vendors (Text.folded d.name) d.value function forms

/-- Renaming a declaration is meeting its demands one by one, if it is not asked what was added. The
names may be any, and are met in the order given. -/
theorem addRenamed_eq (id : NodeId) (value : String) (names : List String) (added : Bool) :
    (names.foldlM (fun added name => do
        return (← insertUnlessNamed id name value) || added) added >>= fun _ => pure ()) =
      (names.map (Demand.named · value)).forM (meet id) := by
  induction names generalizing added with
  | nil => simp
  | cons name names ih =>
    simp only [List.foldlM_cons, bind_assoc, pure_bind, List.map_cons, List.forM_eq_forM,
      List.forM_cons, meet, ih]
    rfl

/-- Adding the forms of a gradient function is meeting its demands one by one. -/
theorem addGradient_eq (vendors : VendorSet) (id : NodeId) (name value function : String)
    (forms : VendorForms) :
    addGradient vendors id name value function forms =
      (gradientDemands vendors name value function forms).forM (meet id) := by
  unfold addGradient gradientDemands
  split
  · simp only [List.forM_eq_forM, List.forM_append, List.forM_map]
    congr 1
    funext _
    cases Gradient.filter? value with
    | none => rfl
    | some filter =>
      cases vendors.msie with
      | false => rfl
      | true => simp [meet, insertUnlessPresent, Demand.present]
  · rfl

/-- A list of lists of edits is run list by list. -/
theorem forM_flatMap {α β : Type} (as : List α) (f : α → List β) (g : β → Edit Unit) :
    (as.flatMap f).forM g = as.forM fun a => (f a).forM g := by
  induction as with
  | nil => rfl
  | cons a as ih =>
    simp only [List.flatMap_cons, List.forM_eq_forM, List.forM_append, List.forM_cons] at ih ⊢
    rw [ih]

/-- The forms of a declaration are added demand by demand. Nothing gives way to its forms here. -/
theorem expandDeclaration_eq (vendors : VendorSet) (id : NodeId) :
    expandDeclaration vendors false id = (do
      match (← get).declaration? id with
      | none => pure ()
      | some d => (demands vendors d).forM (meet id)) := by
  unfold expandDeclaration
  congr 1
  funext s
  cases s.declaration? id with
  | none => rfl
  | some d =>
    obtain ⟨name, value⟩ := d
    dsimp only [demands]
    cases VendorRule.ofProperty (Text.folded name) with
    | renamed forms =>
      dsimp only
      rw [← addRenamed_eq id value _ false]
      simp [addRenamed]
    | filterTwin =>
      dsimp only
      split <;> simp [meet, insertUnlessNamed, Demand.named]
    | opacityFilters =>
      dsimp only [addOpacityFilters]
      cases opacityPercent? value with
      | none => rfl
      | some percent =>
        cases vendors.msie with
        | false => rfl
        | true => simp [meet, insertUnlessPresent, Demand.present]
    | wrapKeywords =>
      dsimp only [addWrapKeywords]
      split
      · simp only [List.forM_eq_forM, List.forM_map]
        rfl
      · simp
    | gradients =>
      dsimp only
      rw [forM_flatMap]
      congr 1
      funext gradient
      exact addGradient_eq vendors id _ value gradient.1 gradient.2

/-- Only a renamed declaration can give way to its forms, so what becomes of the original makes no
difference to a visit to any other. -/
theorem runs_expandDeclaration_iff {vendors : VendorSet} {replace : Bool} {s t : Sheet} {id : NodeId}
    {d : Declaration} (hd : s.declaration? id = some d)
    (hrule : ∀ forms, VendorRule.ofProperty (Text.folded d.name) ≠ .renamed forms) :
    Runs (expandDeclaration vendors replace id) s () t ↔
      Runs ((demands vendors d).forM (meet id)) s () t := by
  have hsame : Runs (expandDeclaration vendors replace id) s () t ↔
      Runs (expandDeclaration vendors false id) s () t := by
    unfold expandDeclaration
    simp only [runs_get_bind_iff, hd]
    cases hproperty : VendorRule.ofProperty (Text.folded d.name) with
    | renamed forms => exact absurd hproperty (hrule forms)
    | filterTwin | opacityFilters | wrapKeywords | gradients => rfl
  rw [hsame, expandDeclaration_eq, runs_get_bind_iff, hd]

end Vendor

namespace Demand

open Sheet Edit Vendor

variable {s t : Sheet} {id : NodeId}

/-- Whether a demand is met can be found out from the declarations beside the node. -/
theorem met_iff (demand : Demand) :
    demand.Met s id ↔ (s.siblingDeclarations id).any demand.clash = true := by
  rw [siblingDeclarations, List.any_eq_true]
  constructor
  · rintro ⟨sibling, hsibling, d, hd, hclash⟩
    exact ⟨d, List.mem_filterMap.2 ⟨sibling, hsibling, hd⟩, hclash⟩
  · rintro ⟨d, hd, hclash⟩
    obtain ⟨sibling, hsibling, hd⟩ := List.mem_filterMap.1 hd
    exact ⟨sibling, hsibling, d, hd, hclash⟩

/-- A demand that is met leaves the sheet, and one that is not inserts a declaration. An insertion
at a detached node fails, so an unmet demand has no run there. -/
theorem runs_meet_iff {demand : Demand} :
    Runs (demand.meet id) s () t ↔ demand.Met s id ∧ s = t ∨ ¬ demand.Met s id ∧
      ∃ new, Runs (insertDeclarationAfter id demand.declaration.name
        demand.declaration.value) s new t := by
  have hget (b : Bool) (u : Sheet) :
      Runs (insertUnless demand.clash id demand.declaration.name demand.declaration.value) s b u ↔
        Runs (if (s.siblingDeclarations id).any demand.clash then pure false
          else insertDeclarationAfter id demand.declaration.name demand.declaration.value >>=
            fun _ => pure true) s b u := Iff.rfl
  simp only [meet, runs_bind_iff, runs_pure_iff, hget, met_iff]
  by_cases hclash : (s.siblingDeclarations id).any demand.clash = true
  · simp [hclash, runs_pure_iff]
  · simp only [hclash, Bool.false_eq_true, if_false, runs_bind_iff, runs_pure_iff, false_and,
      not_false_eq_true, true_and, false_or]
    constructor
    · rintro ⟨b, u, ⟨new, u', hinsert, -, rfl⟩, rfl⟩
      exact ⟨new, hinsert⟩
    · rintro ⟨new, hinsert⟩
      exact ⟨true, t, ⟨new, t, hinsert, rfl, rfl⟩, rfl⟩

theorem Met.runs_meet {demand : Demand} (h : demand.Met s id) : Runs (demand.meet id) s () s :=
  runs_meet_iff.2 (.inl ⟨h, rfl⟩)

theorem Met.of_extends {demand : Demand} (h : demand.Met s id) (hs : s.IsForest)
    (hextends : Extends s t) : demand.Met t id := by
  obtain ⟨sibling, hsibling, d, hd, hclash⟩ := h
  obtain ⟨hlt, hsibling⟩ := hextends.mem_siblings hs hsibling
  exact ⟨sibling, hsibling, d, by rw [hextends.2.declaration? hlt, hd], hclash⟩

/-- What a demand has come to when it was met: something beside the node stands for it, and if a
declaration was added, it is the one that was wanted. -/
theorem runs_meet {demand : Demand} (hself : demand.clash demand.declaration = true)
    (hs : s.IsForest) (h : Runs (demand.meet id) s () t) :
    Extends s t ∧ demand.Met t id ∧ ∀ x, s.size ≤ x → x < t.size →
      t.declaration? x = some demand.declaration ∧ t.parent? x = s.parent? id := by
  rcases runs_meet_iff.1 h with ⟨hmet, rfl⟩ | ⟨-, new, hinsert⟩
  · refine ⟨⟨hs, .refl _ _⟩, hmet, fun x hx hlt => ?_⟩
    exact absurd hlt (Nat.not_lt.2 hx)
  · obtain ⟨hsize, hdeclaration, hparent, hsibling⟩ := runs_insertDeclarationAfter hs hinsert
    have hfinal := final_insertDeclarationAfter hs (Nat.le_refl _) id demand.declaration.name
      demand.declaration.value
    rw [hinsert.final_eq] at hfinal
    refine ⟨hfinal, ⟨s.size, hsibling, _, hdeclaration, hself⟩, fun x hx hlt => ?_⟩
    obtain rfl : x = s.size := by
      rw [hsize] at hlt
      exact Nat.le_antisymm (Nat.le_of_lt_succ hlt) hx
    exact ⟨hdeclaration, hparent⟩

/-- What a list of demands has come to when all were met. Each one stands for itself, so that a
declaration that was added for it meets it. -/
theorem runs_forM_meet {demands : List Demand}
    (hself : ∀ demand ∈ demands, demand.clash demand.declaration = true) (hs : s.IsForest)
    (hid : id < s.size) (h : Runs (demands.forM (meet id)) s () t) :
    Extends s t ∧ (∀ demand ∈ demands, demand.Met t id) ∧ ∀ x, s.size ≤ x → x < t.size →
      ∃ demand ∈ demands, t.declaration? x = some demand.declaration ∧
        t.parent? x = s.parent? id := by
  induction demands generalizing s with
  | nil =>
    obtain rfl := runs_forM_nil_iff.1 h
    refine ⟨⟨hs, .refl _ _⟩, by simp, fun x hx hlt => ?_⟩
    exact absurd hlt (Nat.not_lt.2 hx)
  | cons demand demands ih =>
    obtain ⟨u, hhead, htail⟩ := runs_forM_cons_iff.1 h
    obtain ⟨hextends, hmet, hnew⟩ := runs_meet (hself demand (by simp)) hs hhead
    obtain ⟨hextends', hmet', hnew'⟩ :=
      ih (fun d hd => hself d (by simp [hd])) hextends.1
        (Nat.lt_of_lt_of_le hid hextends.2.size_le) htail
    refine ⟨hextends.trans hextends', ?_, ?_⟩
    · intro d hd
      rcases List.mem_cons.1 hd with rfl | hd
      · exact hmet.of_extends hextends.1 hextends'
      · exact hmet' d hd
    · intro x hx hlt
      by_cases hxu : x < u.size
      · obtain ⟨hdeclaration, hparent⟩ := hnew x hx hxu
        refine ⟨demand, by simp, ?_, ?_⟩
        · rw [hextends'.2.declaration? hxu, hdeclaration]
        · rw [hextends'.2.parent x hxu, hparent]
      · obtain ⟨d, hd, hdeclaration, hparent⟩ := hnew' x (Nat.le_of_not_lt hxu) hlt
        exact ⟨d, by simp [hd], hdeclaration, by rw [hparent, hextends.2.parent id hid]⟩

end Demand

end Sheetsmith
