import Sheetsmith.Proofs.Vendor.Rounds

namespace Sheetsmith.Vendor

open Sheet Edit

variable {s t : Sheet} {id : NodeId}

theorem Extends.isDocument (h : Extends s t) (hs : s.IsDocument) : t.IsDocument :=
  ⟨h.1, by rw [h.2.selector? hs.isForest.root_lt_size, hs.selector_root]⟩

theorem exists_runs_copyKeyframes {keyframes parent : NodeId} (hs : s.IsForest)
    (hparent : s.parent? keyframes = some parent) (selector : String) (vendor : Vendor) :
    ∃ t, Runs (copyKeyframes keyframes selector vendor) s () t := by
  simp only [copyKeyframes_eq, runs_get_bind_iff]
  split
  · exact ⟨s, runs_pure_iff.2 ⟨rfl, rfl⟩⟩
  · obtain ⟨u, hplace, hplaced, -⟩ := run_placeCopy_of_parent hs hparent selector
    obtain ⟨t, hexpand, -⟩ :=
      exists_runsDry_expandDeclaration (.only vendor) true s.size hplaced.isForest
    exact ⟨t, runs_bind_iff.2 ⟨s.size, u, hplace, hexpand⟩⟩

theorem exists_runs_forM_copyKeyframes {keyframes parent : NodeId} (hs : s.IsForest)
    (hparent : s.parent? keyframes = some parent) (selector : Vendor → String)
    (vendors : List Vendor) :
    ∃ t, Runs (vendors.forM fun vendor => copyKeyframes keyframes (selector vendor) vendor) s () t := by
  induction vendors generalizing s with
  | nil => exact ⟨s, runs_forM_nil_iff.2 rfl⟩
  | cons vendor vendors ih =>
    obtain ⟨t, hhead⟩ := exists_runs_copyKeyframes hs hparent (selector vendor) vendor
    have hextends := extends_copyKeyframes keyframes (selector vendor) vendor hs
    rw [hhead.final_eq] at hextends
    have hparent' : t.parent? keyframes = some parent := by
      rw [hextends.2.parent keyframes (lt_size_of_parent? hparent), hparent]
    obtain ⟨u, htail⟩ := ih hextends.1 hparent'
    exact ⟨u, runs_forM_cons_iff.2 ⟨t, hhead, htail⟩⟩

/-- A visit to a declaration in the tree goes through, and so does one to any other node of the
tree. -/
theorem exists_runs_expandAt (vendors : VendorSet) (hs : s.IsDocument) (hid : s.Below id root) :
    ∃ t, Runs (expandAt vendors id) s () t := by
  simp only [expandAt, runs_get_bind_iff]
  cases haround : s.keyframesAround id with
  | none =>
    have hrank : ∀ d, s.declaration? id = some d → rank d ≤ 6 := fun d _ => rank_le d
    obtain ⟨t, hrun, -⟩ := exists_runs_expandDeclaration vendors false hs.isForest
      (isSome_parent?_of_below hid) hrank
    exact ⟨t, hrun⟩
  | some around =>
    cases around with
    | vendored => exact ⟨s, runs_pure_iff.2 ⟨rfl, rfl⟩⟩
    | plain keyframes =>
      obtain ⟨hbelow, hkeyframes, -⟩ := hs.isForest.keyframesAround_eq_plain haround
      obtain ⟨-, selector, hselector, -⟩ := keyframes?_eq_plain hkeyframes
      -- The root has no header, so the block has a parent, and there is a place for its copies.
      have hne : keyframes ≠ root := by
        rintro rfl
        rw [hs.selector_root] at hselector
        cases hselector
      obtain ⟨parent, hparent⟩ := Option.isSome_iff_exists.1
        (isSome_parent?_of_below (hs.isForest.below_root_of_below hid hbelow hne))
      simp only [expandKeyframes, runs_get_bind_iff, hselector]
      exact exists_runs_forM_copyKeyframes hs.isForest hparent _ _

/-- A round of visits to nodes of the tree goes through. The list may name a node several times. -/
theorem exists_runs_forM_expandAt (vendors : VendorSet) {ids : List NodeId} (hs : s.IsDocument)
    (hids : ∀ id ∈ ids, s.Below id root) :
    ∃ t, Runs (ids.forM (expandAt vendors)) s () t ∧ t.IsDocument := by
  induction ids generalizing s with
  | nil => exact ⟨s, runs_forM_nil_iff.2 rfl, hs⟩
  | cons id ids ih =>
    obtain ⟨t, hhead⟩ := exists_runs_expandAt vendors hs (hids id (by simp))
    have hextends := extends_expandAt vendors id hs.isForest
    rw [hhead.final_eq] at hextends
    obtain ⟨u, htail, hu⟩ := ih (hextends.isDocument hs) fun other hother =>
      hextends.2.below (hids other (by simp [hother]))
    exact ⟨u, runs_forM_cons_iff.2 ⟨t, hhead, htail⟩, hu⟩

/-- Adding vendor forms to a document goes through, and its rounds run dry before they meet their
limit. -/
theorem exists_runsDry_expandAt (vendors : VendorSet) (hs : s.IsDocument) :
    ∃ t, Runs (expand vendors root) s () t ∧ RunsDry (expandAt vendors) root 0 s t := by
  have hvisits : ∀ (s : Sheet) (first : NodeId) (bound : Nat), s.IsDocument →
      (∀ id ∈ pending s root first, work s id ≤ bound) →
      ∃ t, Runs ((pending s root first).forM (expandAt vendors)) s () t ∧ t.IsDocument ∧
        ∀ id ∈ pending t root s.size, work t id < bound := by
    intro s first bound hs hbound
    have hmem : ∀ id ∈ pending s root first, id ∈ s.declarations root :=
      fun id hid => (List.mem_filter.1 hid).1
    obtain ⟨t, hrun, ht⟩ := exists_runs_forM_expandAt vendors hs fun id hid =>
      ((mem_declarations_iff hs.isForest).1 (hmem id hid)).1
    obtain ⟨hadds, -⟩ := runs_forM_expandAt hs.isForest
      (fun id hid => ⟨(lt_size_of_mem_declarations hs.isForest (hmem id hid)).1, hbound id hid⟩) hrun
    refine ⟨t, hrun, ht, fun id hid => ?_⟩
    obtain ⟨hid, hnew⟩ := List.mem_filter.1 hid
    obtain ⟨hbelow, hd⟩ := (mem_declarations_iff ht.isForest).1 hid
    exact hadds.work_lt id root (by simpa using hnew) hs.isForest.root_lt_size hbelow hd
  have hstart : ∀ id ∈ pending s root 0, work s id < roundLimit :=
    fun id _ => Nat.lt_of_le_of_lt (work_le s id) (by decide)
  obtain ⟨t, hrun, hdry, -⟩ := exists_runsDry hvisits hs hstart
  exact ⟨t, hrun, hdry⟩

end Sheetsmith.Vendor
