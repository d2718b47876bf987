import Sheetsmith.Proofs.Optimize.Boxes

namespace Sheetsmith

/-- The declarations without the first one of each of the given properties. -/
def withoutFirst : List String → List Declaration → List Declaration
  | _, [] => []
  | properties, d :: ds =>
    if d.name ∈ properties then withoutFirst (properties.erase d.name) ds
    else d :: withoutFirst properties ds

section

variable {properties : List String} {ds : List Declaration}

theorem withoutFirst_sublist (properties : List String) (ds : List Declaration) :
    (withoutFirst properties ds).Sublist ds := by
  induction ds generalizing properties with
  | nil => exact List.Sublist.refl _
  | cons d ds ih =>
    rw [withoutFirst]
    split
    · exact (ih _).cons d
    · exact (ih _).cons_cons d

/-- Each of the properties is declared one time less, if it was declared at all. A property may be
listed several times, and is then taken out as often. -/
theorem count_withoutFirst (properties : List String) (ds : List Declaration) (name : String) :
    ((withoutFirst properties ds).map (·.name)).count name =
      (ds.map (·.name)).count name - properties.count name := by
  induction ds generalizing properties with
  | nil => simp [withoutFirst]
  | cons d ds ih =>
    rw [withoutFirst]
    split
    · next hmem =>
      have hpos := List.count_pos_iff.2 hmem
      rw [ih, List.map_cons, List.count_cons, List.count_erase]
      by_cases heq : d.name = name
      · subst heq
        simp only [beq_self_eq_true, if_true]
        omega
      · simp [heq]
    · next hmem =>
      have hzero := List.count_eq_zero.2 hmem
      rw [List.map_cons, List.count_cons, ih, List.map_cons, List.count_cons]
      by_cases heq : d.name = name
      · subst heq
        rw [hzero]
        omega
      · simp [heq]

/-- Behind some declarations only those properties are left to be taken out that were not met among
them. The order in which they are listed does not matter for the counts. -/
theorem withoutFirst_append (properties : List String) (front back : List Declaration) :
    ∃ left : List String, withoutFirst properties (front ++ back) =
        withoutFirst properties front ++ withoutFirst left back ∧
      ∀ name, left.count name = properties.count name - (front.map (·.name)).count name := by
  induction front generalizing properties with
  | nil => exact ⟨properties, rfl, by simp⟩
  | cons d front ih =>
    rw [List.cons_append, withoutFirst, withoutFirst]
    split
    · obtain ⟨left, hleft, hcount⟩ := ih (properties.erase d.name)
      refine ⟨left, hleft, fun name => ?_⟩
      rw [hcount, List.count_erase, List.map_cons, List.count_cons]
      omega
    · next hmem =>
      obtain ⟨left, hleft, hcount⟩ := ih properties
      refine ⟨left, by rw [hleft, List.cons_append], fun name => ?_⟩
      rw [hcount, List.map_cons, List.count_cons]
      by_cases heq : d.name = name
      · subst heq
        rw [List.count_eq_zero.2 hmem]
        omega
      · simp [heq]

/-- Where one of the properties has a new name and the others are taken out, the properties are
missing and the new name has come in. -/
theorem perm_withoutFirst (hproperties : properties.Nodup) {d e : Declaration}
    (hd : d.name ∈ properties) (front : List Declaration)
    (hcomplete : ∀ property ∈ properties, property ∈ (d :: ds).map (·.name)) :
    ((front ++ e :: withoutFirst (properties.erase d.name) ds).map (·.name) ++ properties).Perm
      (e.name :: (front ++ d :: ds).map (·.name)) := by
  rw [List.perm_iff_count]
  intro name
  have hle : properties.count name ≤ ((d :: ds).map (·.name)).count name := by
    by_cases hmem : name ∈ properties
    · rw [List.count_eq_one_of_mem hproperties hmem]
      exact List.count_pos_iff.2 (hcomplete name hmem)
    · rw [List.count_eq_zero.2 hmem]
      exact Nat.zero_le _
  have hpos : d.name = name → 0 < properties.count name := fun heq => List.count_pos_iff.2 (heq ▸ hd)
  rw [List.map_cons, List.count_cons] at hle
  rw [List.count_append, List.count_cons, List.map_append, List.map_append, List.count_append,
    List.count_append, List.map_cons, List.map_cons, List.count_cons, List.count_cons,
    count_withoutFirst, List.count_erase]
  by_cases heq : d.name = name
  · have hpos := hpos heq
    simp only [heq, beq_self_eq_true, if_true] at hle ⊢
    omega
  · simp only [beq_iff_eq, heq, if_false, Nat.add_zero] at hle ⊢
    omega

/-- Numbered declarations without the first one of each property. The numbers differ, so what is
gone can be told by them. -/
theorem map_snd_filter_first {numbered : List (NodeId × Declaration)} {gone : List NodeId}
    (hproperties : properties.Nodup) (hnumbers : (numbered.map (·.1)).Nodup)
    (hgone : ∀ p ∈ numbered, p.1 ∈ gone ↔
      ∃ property ∈ properties, numbered.find? (·.2.name == property) = some p) :
    (numbered.filter (·.1 ∉ gone)).map (·.2) = withoutFirst properties (numbered.map (·.2)) := by
  induction numbered generalizing properties with
  | nil => rfl
  | cons p numbered ih =>
    rw [List.map_cons, List.nodup_cons] at hnumbers
    obtain ⟨hp, hnumbers⟩ := hnumbers
    have hne (q : NodeId × Declaration) (hq : q ∈ numbered) : p ≠ q := by
      rintro rfl
      exact hp (List.mem_map_of_mem hq)
    have hfirst : p.1 ∈ gone ↔ p.2.name ∈ properties := by
      rw [hgone p (by simp)]
      constructor
      · rintro ⟨property, hproperty, hfind⟩
        have hname := List.find?_some hfind
        rwa [eq_of_beq hname]
      · exact fun hmem => ⟨p.2.name, hmem, List.find?_cons_of_pos (beq_self_eq_true _)⟩
    rw [List.map_cons, withoutFirst]
    by_cases hmem : p.2.name ∈ properties
    · rw [List.filter_cons_of_neg (by simpa using hfirst.2 hmem), if_pos hmem]
      refine ih (hproperties.erase _) hnumbers fun q hq => ?_
      rw [hgone q (by simp [hq])]
      refine exists_congr fun property => ?_
      rw [hproperties.mem_erase_iff]
      by_cases heq : p.2.name = property
      · rw [List.find?_cons_of_pos (by simpa using heq)]
        simp [heq, hne q hq]
      · rw [List.find?_cons_of_neg (by simpa using heq)]
        simp [Ne.symm heq]
    · rw [List.filter_cons_of_pos (by simpa using fun h => hmem (hfirst.1 h)), if_neg hmem,
        List.map_cons]
      congr 1
      refine ih hproperties hnumbers fun q hq => ?_
      rw [hgone q (by simp [hq])]
      refine exists_congr fun property => and_congr_right fun hproperty => ?_
      rw [List.find?_cons_of_neg]
      simp only [beq_iff_eq]
      rintro rfl
      exact hmem hproperty

end

namespace Shorthand

variable {sh : Shorthand} {side : Fin 4} {ds : List Declaration} {d : Declaration}

section

variable {properties : List String}

/-- What says nothing of a side is not missed there. The other declarations may be taken out in any
number. -/
theorem cascade_withoutFirst_of_not_mem (hname : sh.name ∉ properties)
    (hmember : ∀ member, sh.members[side.val]? = some member → member ∉ properties) :
    sh.cascade side (withoutFirst properties ds) = sh.cascade side ds := by
  induction ds generalizing properties with
  | nil => rfl
  | cons d ds ih =>
    rw [withoutFirst, cascade_cons]
    split
    · next hmem =>
      rw [setting_eq_none (by rintro heq; exact hname (heq ▸ hmem))
        fun heq => hmember _ heq hmem, Option.or_none]
      exact ih (fun h => hname (List.mem_of_mem_erase h))
        fun member hm h => hmember member hm (List.mem_of_mem_erase h)
    · rw [cascade_cons, ih hname hmember]

/-- Behind the last shorthand the first declaration of a member is taken out and all later ones
stay. It counted only if there was no later one. -/
theorem cascade_eq_withoutFirst_or {member : String} (hproperties : properties.Nodup)
    (hname : sh.name ∉ properties) (hside : sh.members[side.val]? = some member)
    (hmember : member ∈ properties) (hds : ∀ e ∈ ds, e.name ≠ sh.name)
    (hfirst : ds.find? (·.name == member) = some d) :
    sh.cascade side ds =
      (sh.cascade side (withoutFirst properties ds)).or (sh.setting side d) := by
  induction ds generalizing properties with
  | nil => cases hfirst
  | cons e ds ih =>
    have hds' : ∀ x ∈ ds, x.name ≠ sh.name := fun x hx => hds x (by simp [hx])
    rw [cascade_cons, withoutFirst]
    by_cases heq : e.name = member
    · rw [List.find?_cons_of_pos (by simpa using heq)] at hfirst
      cases hfirst
      rw [if_pos (heq ▸ hmember), cascade_withoutFirst_of_not_mem]
      · exact fun h => hname (List.mem_of_mem_erase h)
      · intro other hother
        rw [hside] at hother
        cases hother
        rw [heq]
        exact fun h => (List.Nodup.mem_erase_iff hproperties).1 h |>.1 rfl
    · rw [List.find?_cons_of_neg (by simpa using heq)] at hfirst
      rw [setting_eq_none (hds e (by simp)) (by rw [hside]; simpa using Ne.symm heq), Option.or_none]
      split
      · exact ih (hproperties.erase _) (fun h => hname (List.mem_of_mem_erase h))
          ((List.mem_erase_of_ne (Ne.symm heq)).2 hmember) hds' hfirst
      · rw [cascade_cons, setting_eq_none (hds e (by simp)) (by rw [hside]; simpa using Ne.symm heq),
          Option.or_none]
        exact ih hproperties hname hmember hds' hfirst

end

/-- The names behind the last shorthand, where its place is known. -/
theorem behind_append_of_not_mem {front back : List String} (hback : sh.name ∉ back) :
    sh.behind (front ++ sh.name :: back) = back := by
  unfold behind
  rw [List.reverse_append, List.reverse_cons, List.append_assoc, List.takeWhile_append_of_pos]
  · simp
  · intro name hname
    simp only [decide_eq_true_eq]
    rintro rfl
    exact hback (List.mem_reverse.1 hname)

/-- A list with a name in it can be cut at the last declaration of that name. -/
theorem exists_last_of_mem {name : String} {ds : List Declaration} (h : name ∈ ds.map (·.name)) :
    ∃ front d back, ds = front ++ d :: back ∧ d.name = name ∧ name ∉ back.map (·.name) := by
  induction ds with
  | nil => cases h
  | cons d ds ih =>
    by_cases hmem : name ∈ ds.map (·.name)
    · obtain ⟨front, e, back, rfl, he, hback⟩ := ih hmem
      exact ⟨d :: front, e, back, rfl, he, hback⟩
    · rw [List.map_cons, List.mem_cons] at h
      exact ⟨[], d, ds, rfl, (h.resolve_right hmem).symm, hmem⟩

/-- The declarations cut at the last shorthand, before and after the first ones of the given
properties are taken out; `left` are the properties that are not met in front of that shorthand. -/
theorem exists_cut {properties : List String} (hproperties : properties.Nodup)
    (hname : sh.name ∉ properties) (h : sh.name ∈ ds.map (·.name)) :
    ∃ between shorthand behind left, ds = between ++ shorthand :: behind ∧
      shorthand.name = sh.name ∧ sh.name ∉ behind.map (·.name) ∧
      withoutFirst properties ds =
        withoutFirst properties between ++ shorthand :: withoutFirst left behind ∧
      sh.name ∉ left ∧ left.Nodup ∧
      ∀ name, left.count name = properties.count name - (between.map (·.name)).count name := by
  obtain ⟨between, shorthand, behind, rfl, hshorthand, hbehind⟩ := exists_last_of_mem h
  obtain ⟨left, hleft, hcount⟩ := withoutFirst_append properties between (shorthand :: behind)
  have hnot : sh.name ∉ left := by
    rw [← List.count_eq_zero, hcount, List.count_eq_zero.2 hname, Nat.zero_sub]
  have hnodup : left.Nodup := List.nodup_iff_count_le_one.2 fun name => by
    have := List.nodup_iff_count_le_one.1 hproperties name
    rw [hcount]
    omega
  rw [withoutFirst, if_neg (hshorthand ▸ hnot)] at hleft
  exact ⟨between, shorthand, behind, left, rfl, hshorthand, hbehind, hleft, hnot, hnodup, hcount⟩

theorem mem_of_mem_behind {name : String} {names : List String} (h : name ∈ sh.behind names) :
    name ∈ names := by
  unfold behind at h
  rw [List.mem_reverse] at h
  exact List.mem_reverse.1 ((List.takeWhile_sublist _).subset h)

end Shorthand

end Sheetsmith
