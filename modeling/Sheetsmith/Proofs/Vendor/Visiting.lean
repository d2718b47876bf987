import Sheetsmith.Proofs.Vendor.Grafting

namespace Sheetsmith.Vendor

open Sheet Edit

/-- The new declarations under old nodes give work for fewer than `bound` rounds. -/
structure Adds (s t : Sheet) (bound : Nat) : Prop where
  growth : Extends s t
  work_lt : ∀ id top, s.size ≤ id → top < s.size → t.Below id top →
    (t.declaration? id).isSome → work t id < bound

section

variable {vendors : VendorSet} {s t u : Sheet} {id : NodeId} {bound : Nat}

theorem Adds.refl (hs : s.IsForest) (bound : Nat) : Adds s s bound := by
  refine ⟨⟨hs, .refl _ _⟩, fun id top hid _ hbelow _ => ?_⟩
  obtain ⟨parent, hparent, -⟩ := Relation.TransGen.head'_iff.1 hbelow
  exact absurd (lt_size_of_parent? hparent) (Nat.not_lt.2 hid)

/-- What is added twice gives no more work, under the same bound. -/
theorem Adds.trans (h : Adds s t bound) (h' : Adds t u bound) : Adds s u bound := by
  refine ⟨h.growth.trans h'.growth, fun id top hid htop hbelow hd => ?_⟩
  by_cases hlt : id < t.size
  · rw [h'.growth.work_eq h.growth.1 hlt]
    refine h.work_lt id top hid htop (h'.growth.below_of_below h.growth.1 hlt hbelow) ?_
    rwa [h'.growth.2.declaration? hlt] at hd
  · exact h'.work_lt id top (Nat.le_of_not_lt hlt) (Nat.lt_of_lt_of_le htop h.growth.2.size_le)
      hbelow hd

theorem Adds.mono (h : Adds s t bound) {bound' : Nat} (hle : bound ≤ bound') : Adds s t bound' :=
  ⟨h.growth, fun id top hid htop hbelow hd =>
    Nat.lt_of_lt_of_le (h.work_lt id top hid htop hbelow hd) hle⟩

/-- The new nodes under old ones are the copy and what is below it. So whatever is new in the tree
hangs from the copy. -/
theorem Placed.eq_or_below {parent : NodeId} (h : Placed s t parent) {top : NodeId}
    (hid : s.size ≤ id) (htop : top < s.size) (hbelow : t.Below id top) :
    id = s.size ∨ t.Below id s.size := by
  induction hbelow using Relation.TransGen.head_induction_on with
  | @single id hparent =>
    rcases Nat.lt_or_eq_of_le hid with hlt | heq
    · exact absurd htop (Nat.not_lt.2 (h.parent_new id top hlt hparent))
    · exact .inl heq.symm
  | @head id up hparent _ ih =>
    rcases Nat.lt_or_eq_of_le hid with hlt | heq
    · rcases ih (h.parent_new id up hlt hparent) with rfl | hup
      · exact .inr (.single hparent)
      · exact .inr (.head hparent hup)
    · exact .inl heq.symm

/-- A copy has a vendor's name, so there is no more work in it. -/
theorem Placed.adds {keyframes parent : NodeId} {vendor : Vendor} {name : String} (hs : s.IsForest)
    (h : Placed s t parent) (hparent : s.parent? keyframes = some parent)
    (haround : s.keyframesAround keyframes = none)
    (hselector : t.selector? s.size = some (vendor.keyframesWord ++ name)) : Adds s t 1 := by
  have hextends : Extends s t := ⟨h.isForest, h.grows⟩
  have hlt : keyframes < s.size := lt_size_of_parent? hparent
  have htop : t.keyframesAround s.size = none := by
    have hbeside : t.parent? s.size = t.parent? keyframes := by
      rw [h.parent_copy, h.grows.parent keyframes hlt, hparent]
    rw [keyframesAround_congr hbeside, h.grows.keyframesAround hs h.isForest hlt, haround]
  refine ⟨hextends, fun id top hid htop' hbelow hd => ?_⟩
  rcases h.eq_or_below hid htop' hbelow with rfl | hcopy
  · obtain ⟨d, hd⟩ := Option.isSome_iff_exists.1 hd
    rw [selector?, group?, declaration?_eq_some_iff.1 hd] at hselector
    cases hselector
  · rw [work, h.isForest.keyframesAround_of_below hcopy (keyframes?_eq_vendored hselector) htop]
    exact Nat.one_pos

/-- What a copy of a keyframes block comes to: no more than one round of work, and a group of that
name beside the block. -/
theorem runs_copyKeyframes {keyframes : NodeId} {vendor : Vendor} {name : String} (hs : s.IsForest)
    (hgroup : (s.group? keyframes).isSome) (haround : s.keyframesAround keyframes = none)
    (h : Runs (copyKeyframes keyframes (vendor.keyframesWord ++ name) vendor) s () t) :
    Adds s t 1 ∧ vendor.keyframesWord ++ name ∈ besideSelectors t keyframes := by
  rcases runs_copyKeyframes_cases hs hgroup h with
    ⟨hmem, rfl⟩ | ⟨-, parent, hplaced, hgraft, hselector⟩
  · exact ⟨.refl hs 1, hmem⟩
  · have hparent := hgraft.parent_eq
    have hlt : keyframes < s.size := lt_size_of_parent? hparent
    refine ⟨hplaced.adds hs hparent haround hselector, ?_⟩
    refine mem_besideSelectors.2 ⟨s.size, ?_, hselector⟩
    rw [siblings, List.mem_filter, family, hplaced.grows.parent keyframes hlt, hparent]
    refine ⟨hplaced.isForest.mem_children_of_parent? hplaced.parent_copy, ?_⟩
    simpa using Nat.ne_of_gt hlt

theorem runs_forM_copyKeyframes {keyframes : NodeId} {vendors : List Vendor} {selector : String}
    (hs : s.IsForest) (hselector : s.selector? keyframes = some selector)
    (haround : s.keyframesAround keyframes = none)
    (h : Runs (vendors.forM fun vendor =>
      copyKeyframes keyframes (copySelector selector vendor) vendor) s () t) :
    Adds s t 1 ∧ ∀ vendor ∈ vendors, copySelector selector vendor ∈ besideSelectors t keyframes := by
  induction vendors generalizing s with
  | nil =>
    obtain rfl := runs_forM_nil_iff.1 h
    exact ⟨.refl hs 1, by simp⟩
  | cons vendor vendors ih =>
    obtain ⟨u, hhead, htail⟩ := runs_forM_cons_iff.1 h
    obtain ⟨g, hg, -⟩ := Option.bind_eq_some_iff.1 hselector
    have hlt : keyframes < s.size := lt_size_of_node? (group?_eq_some_iff.1 hg)
    obtain ⟨hadds, hmem⟩ := runs_copyKeyframes hs (by rw [hg]; rfl) haround hhead
    have hselector' : u.selector? keyframes = some selector := by
      rw [hadds.growth.2.selector? hlt, hselector]
    have haround' : u.keyframesAround keyframes = none := by
      rw [hadds.growth.2.keyframesAround hs hadds.growth.1 hlt, haround]
    obtain ⟨hadds', hmem'⟩ := ih hadds.growth.1 hselector' haround' htail
    refine ⟨hadds.trans hadds', fun other hother => ?_⟩
    rcases List.mem_cons.1 hother with rfl | hother
    · exact hadds'.growth.mem_besideSelectors hadds.growth.1 hmem
    · exact hmem' other hother

/-- What a visit outside of keyframes comes to. The node need not be a declaration, and then it adds
nothing. -/
theorem runs_expandDeclaration (hs : s.IsForest) (hid : id < s.size)
    (haround : s.keyframesAround id = none)
    (h : Runs (expandDeclaration vendors false id) s () t) :
    Adds s t (work s id) ∧ Settled vendors t id := by
  rw [expandDeclaration_eq, runs_get_bind_iff] at h
  cases hd : s.declaration? id with
  | none =>
    rw [hd] at h
    obtain ⟨-, rfl⟩ := runs_pure_iff.1 h
    refine ⟨.refl hs _, ?_⟩
    rw [Settled, haround]
    intro d hd'
    rw [hd] at hd'
    cases hd'
  | some d =>
    rw [hd] at h
    have hwanted (demand : Demand) (hdemand : demand ∈ demands vendors d) : Wanted d demand :=
      wanted_of_mem_demands hdemand
    obtain ⟨hextends, hmet, hnew⟩ :=
      Demand.runs_forM_meet (fun demand hdemand => (hwanted demand hdemand).clash) hs hid h
    have haround' : t.keyframesAround id = none := by
      rw [hextends.2.keyframesAround hs hextends.1 hid, haround]
    constructor
    · refine ⟨hextends, fun x top hx _ hbelow hdeclaration => ?_⟩
      obtain ⟨e, he⟩ := Option.isSome_iff_exists.1 hdeclaration
      obtain ⟨demand, hdemand, hx', hparent⟩ :=
        hnew x hx (lt_size_of_node? (declaration?_eq_some_iff.1 he))
      -- A new declaration stands beside the old one, so the same keyframes are around it.
      have hbeside : t.parent? x = t.parent? id := by rw [hparent, hextends.2.parent id hid]
      rw [work, work, keyframesAround_congr hbeside, haround', haround, hx', hd]
      exact (hwanted demand hdemand).rank_lt
    · rw [Settled, haround']
      intro e he
      rw [hextends.2.declaration? hid, hd] at he
      cases he
      exact hmet

/-- What a visit comes to: nothing is left to do at the node, and there is less to do at the new
ones. -/
theorem runs_expandAt (hs : s.IsForest) (hid : id < s.size)
    (h : Runs (expandAt vendors id) s () t) : Adds s t (work s id) ∧ Settled vendors t id := by
  rw [expandAt, runs_get_bind_iff] at h
  cases haround : s.keyframesAround id with
  | none =>
    rw [haround] at h
    exact runs_expandDeclaration hs hid haround h
  | some around =>
    rw [haround] at h
    cases around with
    | vendored =>
      obtain ⟨-, rfl⟩ := runs_pure_iff.1 h
      refine ⟨.refl hs _, ?_⟩
      rw [Settled, haround]
      trivial
    | plain keyframes =>
      obtain ⟨-, hkeyframes, houter⟩ := hs.keyframesAround_eq_plain haround
      obtain ⟨-, selector, hselector, -⟩ := keyframes?_eq_plain hkeyframes
      obtain ⟨g, hg, -⟩ := Option.bind_eq_some_iff.1 hselector
      have hlt : keyframes < s.size := lt_size_of_node? (group?_eq_some_iff.1 hg)
      dsimp only at h
      rw [expandKeyframes, runs_get_bind_iff, hselector] at h
      obtain ⟨hadds, hmem⟩ := runs_forM_copyKeyframes hs hselector houter h
      refine ⟨by rwa [work, haround], ?_⟩
      rw [Settled, hadds.growth.2.keyframesAround hs hadds.growth.1 hid, haround]
      intro selector' hselector'
      rw [hadds.growth.2.selector? hlt, hselector] at hselector'
      cases hselector'
      exact hmem

end

end Sheetsmith.Vendor
