import Sheetsmith.Proofs.Vendor.Copies

namespace Sheetsmith.Vendor

open Sheet Edit

section

variable {vendors : VendorSet} {s t u v : Sheet} {id group parent new : NodeId} {d : Declaration}
  {name : String}

/-- A declaration that is at most renamed for the vendors. -/
structure IsRenamable (d : Declaration) : Prop where
  rule : (∃ forms, VendorRule.ofProperty (Text.folded d.name) = .renamed forms) ∨
    VendorRule.ofProperty (Text.folded d.name) = .gradients
  value : ¬ UsesGradient d.value

/-- Such a declaration wants the vendors' names for it, and nothing else. -/
theorem IsRenamable.demands_eq (h : IsRenamable d) (vendors : VendorSet) :
    demands vendors d = (formNames vendors d).map (.named · d.value) := by
  rcases h.rule with ⟨forms, hrule⟩ | hrule
  · rw [demands, formNames, hrule]
  · rw [demands, formNames, hrule]
    refine List.flatMap_eq_nil_iff.2 fun gradient hgradient => ?_
    exact if_neg fun huses => h.value ⟨gradient, hgradient, huses⟩

/-- A name that the vendors have for a declaration of a group, and that nothing in it has. -/
def IsMissing (vendors : VendorSet) (s : Sheet) (group : NodeId) (name : String) : Prop :=
  (∃ d ∈ s.declarationsIn group, name ∈ formNames vendors d) ∧
    ∀ d ∈ s.declarationsIn group, d.isNamed name = false

/-- The new declarations of a group have names that were missing there, and want nothing more. -/
def AddsMissing (vendors : VendorSet) (s t : Sheet) (group : NodeId) : Prop :=
  ∀ new ∈ t.children group, s.size ≤ new → ∀ e, t.declaration? new = some e →
    IsMissing vendors s group e.name ∧ ¬ UsesGradient e.value

theorem AddsMissing.demands_eq_nil (h : AddsMissing vendors s u group) {e : Declaration}
    (hnew : new ∈ u.children group) (hle : s.size ≤ new) (he : u.declaration? new = some e) :
    demands vendors e = [] := by
  obtain ⟨⟨⟨d, -, hname⟩, -⟩, hvalue⟩ := h new hnew hle e he
  have hnamed : e.isNamed e.name = true := isNamed_self e.name e.value
  have hrenamable : IsRenamable e := ⟨.inr (ofProperty_of_isNamed hname hnamed), hvalue⟩
  rw [hrenamable.demands_eq, formNames_of_isNamed hname hnamed]
  rfl

/-- What a declaration of the group still wants is missing, and the declaration is an old one. New
declarations have vendors' names, which demand nothing. -/
theorem AddsMissing.isMissing_of_unmet (h : AddsMissing vendors s u group) (hs : s.IsForest)
    (hu : u.IsForest) (hextends : Extends s u) (hgroup : group < s.size)
    (hplain : ∀ d ∈ s.declarationsIn group, IsRenamable d) (hparent : u.parent? id = some group)
    (hd : u.declaration? id = some d) {demand : Demand} (hdemand : demand ∈ demands vendors d)
    (hunmet : ¬ demand.Met u id) :
    IsMissing vendors s group demand.declaration.name ∧
      ¬ UsesGradient demand.declaration.value := by
  have hid := hu.mem_children_of_parent? hparent
  have hlt : id < s.size := by
    by_contra hnot
    rw [h.demands_eq_nil hid (Nat.le_of_not_lt hnot) hd] at hdemand
    cases hdemand
  have hmem : d ∈ s.declarationsIn group := List.mem_filterMap.2
    ⟨id, (hextends.2.mem_children_iff hgroup hlt).1 hid, by rw [← hextends.2.declaration? hlt, hd]⟩
  rw [(hplain d hmem).demands_eq] at hdemand
  obtain ⟨name, hname, rfl⟩ := List.mem_map.1 hdemand
  refine ⟨⟨⟨d, hmem, hname⟩, fun e he => ?_⟩, (hplain d hmem).value⟩
  obtain ⟨other, hother, he⟩ := List.mem_filterMap.1 he
  have hlt' := hs.lt_size_of_mem_children hother
  exact isNamed_eq_false_of_unmet hunmet hparent hd hname other
    ((hextends.2.mem_children_iff hgroup hlt').2 hother) e
    ((hextends.2.declaration? hlt').trans he)

/-- What a step keeps: whatever it adds to a group of plain declarations was missing. The node that
is visited may be anywhere in the tree. -/
theorem Step.addsMissing (h : Step vendors id u v) (hs : s.IsForest) (hu : u.IsForest)
    (hextends : Extends s u) (hgroup : group < s.size)
    (hplain : ∀ d ∈ s.declarationsIn group, IsRenamable d)
    (hadds : AddsMissing vendors s u group) : AddsMissing vendors s v group := by
  have hgroup' := Nat.lt_of_lt_of_le hgroup hextends.2.size_le
  have hold {at' parent : NodeId} (hgraft : Grafted u v at' parent) {new : NodeId} {e : Declaration}
      (hnew : new ∈ u.children group) (hle : s.size ≤ new) (he : v.declaration? new = some e) :
      IsMissing vendors s group e.name ∧ ¬ UsesGradient e.value := by
    rw [hgraft.growth.2.declaration? (hu.lt_size_of_mem_children hnew)] at he
    exact hadds new hnew hle e he
  intro new hnew hle e he
  cases h with
  | copied _ _ _ _ _ hgraft hblock =>
    rcases (hgraft.mem_children_iff hgroup').1 hnew with hnew | ⟨-, rfl⟩
    · exact hold hgraft hnew hle he
    · rw [selector?, group?, declaration?_eq_some_iff.1 he] at hblock
      cases hblock
  | declared _ hd hdemand hunmet hgraft hadded =>
    rcases (hgraft.mem_children_iff hgroup').1 hnew with hnew | ⟨rfl, rfl⟩
    · exact hold hgraft hnew hle he
    · rw [hadded] at he
      obtain rfl := Option.some.inj he
      exact hadds.isMissing_of_unmet hs hu hextends hgroup hplain hgraft.parent_eq hd hdemand hunmet

/-- Whatever is added to a group of plain declarations was missing. What the other groups declare
does not matter. -/
theorem addsMissing_of_runs_expand (hs : s.IsForest) (hgroup : group < s.size)
    (hplain : ∀ d ∈ s.declarationsIn group, IsRenamable d)
    (hrun : Runs (expand vendors parent) s () t) :
    Extends s t ∧ AddsMissing vendors s t group := by
  refine runs_visitRounds_induction
    (motive := fun u => Extends s u ∧ AddsMissing vendors s u group)
    (fun id u v _ hu hkept hstep => ⟨hkept.1.trans hstep.growth,
      hstep.addsMissing hs hu hkept.1 hgroup hplain hkept.2⟩) hs (Nat.zero_le _)
    ⟨⟨hs, .refl _ _⟩, fun new hnew hle => ?_⟩ hrun
  exact absurd (hs.lt_size_of_mem_children hnew) (Nat.not_lt.2 hle)

/-- The old children of a group stand in their order. -/
theorem Extends.filter_children (h : Extends s t) (hs : s.IsForest) (hgroup : group < s.size) :
    (t.children group).filter (· < s.size) = s.children group := by
  refine (h.2.children group hgroup).trans (List.filter_eq_self.2 fun child hchild => ?_)
  simpa using hs.lt_size_of_mem_children hchild

/-- The children of a group outside of keyframes have no block around them. -/
theorem keyframesAround_of_mem_children (hs : s.IsForest) (h : ¬ InKeyframes s group)
    (hid : id ∈ s.children group) : s.keyframesAround id = none :=
  Option.not_isSome_iff_eq_none.1
    (mt (inKeyframes_iff_of_parent? hs (hs.parent?_of_mem_children hid)).1 h)

theorem IsMissing.exists_first (h : IsMissing vendors s group name) :
    ∃ anchor d, firstToWant? vendors s group name = some anchor ∧
      s.declaration? anchor = some d := by
  obtain ⟨⟨e, he, hname⟩, -⟩ := h
  obtain ⟨id, hid, he⟩ := List.mem_filterMap.1 he
  have hsome : (firstToWant? vendors s group name).isSome := by
    rw [firstToWant?, List.find?_isSome]
    exact ⟨id, hid, by simp [he, hname]⟩
  obtain ⟨anchor, hanchor⟩ := Option.isSome_iff_exists.1 hsome
  obtain ⟨⟨d, hd, -⟩, -⟩ := firstToWant?_eq_some hanchor
  exact ⟨anchor, d, hanchor, hd⟩

end

/-- Where declarations are at most renamed for the vendors, the old ones stay as they are and in
their order, and each missing name comes in once: behind the first declaration that the vendors know
under it, and with the value of that declaration. No other declarations come in. The group may be
any of the tree outside of keyframes, also one without declarations. -/
theorem expand_renamed {s : Sheet} (hs : s.IsDocument) (vendors : VendorSet) {group : NodeId}
    (hgroup : group = root ∨ group ∈ s.groups root) (houtside : ¬ InKeyframes s group)
    (hplain : ∀ d ∈ s.declarationsIn group, IsRenamable d) :
    ∃ t, (expand vendors root).run.run s = (.ok (), t) ∧
      ((t.children group).filter (· < s.size) = s.children group ∧
        ∀ id ∈ s.children group, t.declaration? id = s.declaration? id) ∧
      (∀ name, IsMissing vendors s group name → ∃ anchor d new,
        firstToWant? vendors s group name = some anchor ∧ s.declaration? anchor = some d ∧
          IsOnlyCopy s t group anchor ⟨name, d.value⟩ new) ∧
      ∀ new ∈ t.children group, s.size ≤ new → ∀ e, t.declaration? new = some e →
        IsMissing vendors s group e.name := by
  have hforest := hs.isForest
  obtain ⟨t, hrun, -⟩ := exists_runsDry_expandAt vendors hs
  have hbelow := hgroup.imp_right hforest.below_of_mem_groups
  have hlt : group < s.size := by
    rcases hbelow with rfl | hbelow
    · exact hforest.root_lt_size
    · obtain ⟨up, hup, -⟩ := Relation.TransGen.head'_iff.1 hbelow
      exact lt_size_of_parent? hup
  obtain ⟨hextends, hadds⟩ := addsMissing_of_runs_expand hforest hlt hplain hrun
  refine ⟨t, hrun, ⟨?_, fun id hid => ?_⟩, fun name hmissing => ?_, fun new hnew hle e he => ?_⟩
  · exact hextends.filter_children hforest hlt
  · exact hextends.2.declaration? (hforest.lt_size_of_mem_children hid)
  · obtain ⟨anchor, d, hfirst, hd⟩ := hmissing.exists_first
    have hanchor := List.mem_of_find?_eq_some hfirst
    have horiginal : IsOriginal vendors s group anchor d name := by
      refine ⟨hfirst, hd, (hplain d (List.mem_filterMap.2 ⟨anchor, hanchor, hd⟩)).value, ?_,
        hmissing.2⟩
      exact keyframesAround_of_mem_children hforest houtside hanchor
    obtain ⟨-, new, hnew⟩ := horiginal.exists_onlyCopy hforest hbelow hrun
    exact ⟨anchor, d, new, hfirst, hd, hnew⟩
  · exact (hadds new hnew hle e he).1

/-- A property that is declared twice. -/
def fallbackText : String :=
  "a\x7banimation:none;animation:spin 1s\x7d"

theorem ofProperty_animation : VendorRule.ofProperty (Text.folded "animation") =
    .renamed ⟨none, some "-webkit-animation", none, none⟩ := by
  decide +kernel

theorem expand_renamed_fallbackText :
    let s := parse true fallbackText
    IsMissing (.only .webkit) s 1 "-webkit-animation" ∧ ∃ t new,
      (expand (.only .webkit) root).run.run s = (.ok (), t) ∧
        IsOnlyCopy s t 1 2 ⟨"-webkit-animation", "none"⟩ new := by
  intro s
  obtain ⟨hgroup, houtside, hrule⟩ : 1 ∈ s.groups root ∧ ¬ InKeyframes s 1 ∧
      s.declarationsIn 1 = [⟨"animation", "none"⟩, ⟨"animation", "spin 1s"⟩] := by
    unfold InKeyframes
    decide +kernel
  have hplain : ∀ d ∈ s.declarationsIn 1, IsRenamable d := by
    intro d hd
    rw [hrule] at hd
    simp only [List.mem_cons, List.not_mem_nil, or_false] at hd
    rcases hd with rfl | rfl
    · exact ⟨.inl ⟨_, ofProperty_animation⟩, by decide +kernel⟩
    · exact ⟨.inl ⟨_, ofProperty_animation⟩, by decide +kernel⟩
  have hmissing : IsMissing (.only .webkit) s 1 "-webkit-animation" := by
    unfold IsMissing
    decide +kernel
  obtain ⟨t, hrun, -, hcopies, -⟩ := expand_renamed (isDocument_parse true fallbackText)
    (.only .webkit) (.inr hgroup) houtside hplain
  obtain ⟨anchor, d, new, hanchor, hd, hnew⟩ := hcopies "-webkit-animation" hmissing
  have hfirst : firstToWant? (.only .webkit) s 1 "-webkit-animation" = some 2 ∧
      s.declaration? 2 = some ⟨"animation", "none"⟩ := by
    decide +kernel
  obtain rfl := Option.some.inj (hanchor.symm.trans hfirst.1)
  obtain rfl := Option.some.inj (hd.symm.trans hfirst.2)
  exact ⟨hmissing, t, new, hrun, hnew⟩

/-- The first declaration of a renamed property is the first that wants a vendor's name for it.
Other properties want other names, so none of them can come first. -/
theorem exists_firstToWant? {vendors : VendorSet} {s : Sheet} {group : NodeId}
    {property name : String} {d : Declaration} {forms : VendorForms}
    (hfirst : (s.declarationsIn group).find? (·.isNamed property) = some d)
    (hrule : VendorRule.ofProperty (Text.folded property) = .renamed forms)
    (hname : name ∈ forms.within vendors) : ∃ anchor,
    firstToWant? vendors s group name = some anchor ∧ s.declaration? anchor = some d := by
  have hwants (e : Declaration) :
      (formNames vendors e).contains name = e.isNamed property := by
    have hmem (e : Declaration) (h : Text.folded e.name = Text.folded property) :
        name ∈ formNames vendors e := mem_formNames_iff.2 ⟨forms, h ▸ hrule, hname⟩
    rw [Bool.eq_iff_iff, List.contains_iff_mem]
    refine ⟨fun h => ?_, fun h => hmem e (isNamed_iff.1 h)⟩
    exact (isNamed_of_mem_formNames h (hmem ⟨property, ""⟩ rfl) (isNamed_self name "")).1
  rw [declarationsIn, List.find?_filterMap] at hfirst
  obtain ⟨anchor, hanchor, hd⟩ := Option.bind_eq_some_iff.1 hfirst
  refine ⟨anchor, ?_, hd⟩
  simp only [firstToWant?, hwants, hanchor]

/-- The only copy of a name is what the group declares under it. Names are compared in any letter
case. -/
theorem IsOnlyCopy.filter_declarationsIn {s t : Sheet} {group anchor new : NodeId}
    {copy : Declaration} (h : IsOnlyCopy s t group anchor copy new) (ht : t.IsForest) :
    (t.declarationsIn group).filter (·.isNamed copy.name) = [copy] := by
  obtain ⟨front, back, hchildren⟩ := List.append_of_mem h.new_mem
  have hnodup := ht.nodup_children group
  rw [hchildren] at hnodup
  have hnone {ids : List NodeId} (hids : ∀ id ∈ ids, id ∈ t.children group ∧ id ≠ new) :
      (ids.filterMap t.declaration?).filter (·.isNamed copy.name) = [] := by
    refine List.filter_eq_nil_iff.2 fun e he hnamed => ?_
    obtain ⟨id, hid, he⟩ := List.mem_filterMap.1 he
    exact (hids id hid).2 (h.only id (hids id hid).1 e he hnamed)
  have hfront : ∀ id ∈ front, id ∈ t.children group ∧ id ≠ new := by
    refine fun id hid => ⟨by rw [hchildren]; simp [hid], ?_⟩
    rintro rfl
    exact (List.nodup_append.1 hnodup).2.2 _ hid _ List.mem_cons_self rfl
  have hback : ∀ id ∈ back, id ∈ t.children group ∧ id ≠ new := by
    refine fun id hid => ⟨by rw [hchildren]; simp [hid], ?_⟩
    rintro rfl
    exact (List.nodup_cons.1 (List.nodup_append.1 hnodup).2.1).1 hid
  have hself : copy.isNamed copy.name = true := isNamed_self copy.name copy.value
  rw [declarationsIn, hchildren, List.filterMap_append, List.filterMap_cons_some h.declaration,
    List.filter_append, hnone hfront, List.filter_cons, if_pos hself, hnone hback]
  rfl

/-- Where a property is declared several times, the vendor's name stands for the first of its
declarations: the others find a declaration of that name beside them. The first value has no
gradient, and nothing in the group had the name; other declarations of the group may be anything. -/
theorem expand_renamed_first {s : Sheet} (hs : s.IsDocument) (vendors : VendorSet) {group : NodeId}
    (hgroup : group = root ∨ group ∈ s.groups root) (houtside : ¬ InKeyframes s group)
    {property name : String} {d : Declaration} {forms : VendorForms} {vendor : Vendor}
    (hfirst : (s.declarationsIn group).find? (·.isNamed property) = some d)
    (hvalue : ¬ UsesGradient d.value)
    (hrule : VendorRule.ofProperty (Text.folded property) = .renamed forms)
    (hvendor : vendors.contains vendor = true) (hname : forms.of? vendor = some name)
    (hunborne : ∀ e ∈ s.declarationsIn group, e.isNamed name = false) :
    ∃ t, (expand vendors root).run.run s = (.ok (), t) ∧
      (t.declarationsIn group).filter (·.isNamed name) = [⟨name, d.value⟩] := by
  have hforest := hs.isForest
  obtain ⟨t, hrun, -⟩ := exists_runsDry_expandAt vendors hs
  have hwithin : name ∈ forms.within vendors := List.mem_filterMap.2
    ⟨vendor, List.mem_filter.2 ⟨by cases vendor <;> decide, hvendor⟩, hname⟩
  obtain ⟨anchor, hanchor, hd⟩ := exists_firstToWant? hfirst hrule hwithin
  have horiginal : IsOriginal vendors s group anchor d name :=
    ⟨hanchor, hd, hvalue, keyframesAround_of_mem_children hforest houtside
      (List.mem_of_find?_eq_some hanchor), hunborne⟩
  obtain ⟨hextends, new, hnew⟩ := horiginal.exists_onlyCopy hforest
    (hgroup.imp_right hforest.below_of_mem_groups) hrun
  exact ⟨t, hrun, hnew.filter_declarationsIn hextends.1⟩

theorem expand_renamed_first_fallbackText :
    let s := parse true fallbackText
    (s.declarationsIn 1).find? (·.isNamed "animation") = some ⟨"animation", "none"⟩ ∧
      ∃ t, (expand (.only .webkit) root).run.run s = (.ok (), t) ∧
        (t.declarationsIn 1).filter (·.isNamed "-webkit-animation") =
          [⟨"-webkit-animation", "none"⟩] := by
  intro s
  obtain ⟨hgroup, houtside, hfirst, hunborne⟩ : 1 ∈ s.groups root ∧ ¬ InKeyframes s 1 ∧
      (s.declarationsIn 1).find? (·.isNamed "animation") = some ⟨"animation", "none"⟩ ∧
      ∀ e ∈ s.declarationsIn 1, e.isNamed "-webkit-animation" = false := by
    unfold InKeyframes
    decide +kernel
  have hvendor : (VendorSet.only .webkit).contains .webkit = true := by decide
  exact ⟨hfirst, expand_renamed_first (isDocument_parse true fallbackText) (.only .webkit)
    (.inr hgroup) houtside hfirst (by decide +kernel) ofProperty_animation hvendor rfl hunborne⟩

/-- The value that is in force for a name in a group. -/
def lastValue? (s : Sheet) (group : NodeId) (name : String) : Option String :=
  ((s.declarationsIn group).filter (·.isNamed name)).getLast?.map (·.value)

/-- So the value under the vendor's name need not be the one that is in force for the property. -/
theorem lastValue?_expand_fallbackText :
    let s := parse true fallbackText
    let run := (expand (.only .webkit) root).run.run s
    (1 ∈ s.groups root ∧ ¬ InKeyframes s 1) ∧
      (∀ e ∈ s.declarationsIn 1, e.name.toList.head? ≠ some '-' ∧ ¬ UsesGradient e.value) ∧
      "-webkit-animation" ∈ formNames (.only .webkit) ⟨"animation", "spin 1s"⟩ ∧
      run.1 = .ok () ∧ lastValue? run.2 1 "-webkit-animation" = some "none" ∧
      lastValue? run.2 1 "animation" = some "spin 1s" := by
  unfold InKeyframes
  decide +kernel

end Sheetsmith.Vendor
