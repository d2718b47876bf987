import Sheetsmith.Proofs.Vendor.Settled

namespace Sheetsmith.Vendor

open Sheet Edit

/-- One more child stands right behind a node. Whatever else is new lies below that child. -/
structure Grafted (s t : Sheet) (id parent : NodeId) : Prop where
  growth : Extends s t
  parent_eq : s.parent? id = some parent
  children_eq : ∀ group < s.size, t.children group =
    if group = parent then placeAfter id s.size (s.children group) else s.children group

section

variable {vendors : VendorSet} {s t u : Sheet} {id parent group : NodeId}

theorem Grafted.node?_eq (h : Grafted s t id parent) (hgroup : group < s.size)
    (hne : group ≠ parent) : t.node? group = s.node? group := by
  apply h.growth.2.node?_eq hgroup
  rw [h.children_eq group hgroup, if_neg hne]

/-- The children of an old group are those it had and, if it is the parent, the new node. The order
among them is not said here. -/
theorem Grafted.mem_children_iff (h : Grafted s t id parent) (hgroup : group < s.size)
    {child : NodeId} :
    child ∈ t.children group ↔ child ∈ s.children group ∨ group = parent ∧ child = s.size := by
  rw [h.children_eq group hgroup]
  by_cases hparent : group = parent
  · rw [if_pos hparent, ((places_placeAfter id s.size).perm _).mem_iff, List.mem_cons]
    simp [hparent, or_comm]
  · simp [hparent]

/-- A declaration that was inserted is grafted behind the node. Name and value may be any. -/
theorem grafted_of_runs_insertDeclarationAfter (hs : s.IsForest) {new : NodeId}
    {name value : String} (h : Runs (insertDeclarationAfter id name value) s new t) :
    ∃ parent, Grafted s t id parent ∧ t.declaration? s.size = some ⟨name, value⟩ := by
  obtain ⟨-, hdeclaration, -, -⟩ := runs_insertDeclarationAfter hs h
  have hfinal := final_insertDeclarationAfter hs (Nat.le_refl _) id name value
  rw [h.final_eq] at hfinal
  rw [Runs, run_insertDeclarationAfter hs] at h
  cases hparent : s.parent? id with
  | none =>
    rw [hparent] at h
    cases h
  | some parent =>
    rw [hparent] at h
    cases h
    have hnode : ∀ g, Node.declaration ⟨name, value⟩ = .group g → g.children = [] := by rintro g ⟨⟩
    have hgroup : ((s.create (.declaration ⟨name, value⟩)).2.group? parent).isSome := by
      obtain ⟨g, hg⟩ := hs.exists_group_of_parent? hparent
      rw [group?_create, if_neg (Nat.ne_of_lt (hs.parent_lt_size hparent)), hg]
      rfl
    refine ⟨parent, ⟨hfinal, hparent, fun group _ => ?_⟩, hdeclaration⟩
    rw [children_link _ hgroup, children_create s hnode]

/-- What a copy of a keyframes block comes to: nothing where a block of its name stands beside the
block, and else one more child behind the block. -/
theorem runs_copyKeyframes_cases {keyframes : NodeId} {selector : String} {vendor : Vendor}
    (hs : s.IsForest) (hgroup : (s.group? keyframes).isSome)
    (h : Runs (copyKeyframes keyframes selector vendor) s () t) :
    selector ∈ besideSelectors s keyframes ∧ s = t ∨
      selector ∉ besideSelectors s keyframes ∧ ∃ parent, Placed s t parent ∧
        Grafted s t keyframes parent ∧ t.selector? s.size = some selector := by
  rw [copyKeyframes_eq, runs_get_bind_iff] at h
  change Runs (if (besideSelectors s keyframes).contains _ then pure () else _) s () t at h
  split at h
  · next hmem =>
    obtain ⟨-, rfl⟩ := runs_pure_iff.1 h
    exact .inl ⟨List.contains_iff_mem.1 hmem, rfl⟩
  · next hmem =>
    refine .inr ⟨mt List.contains_iff_mem.2 hmem, ?_⟩
    obtain ⟨copy, u, hplace, hexpand⟩ := runs_bind_iff.1 h
    cases hparent : s.parent? keyframes with
    | none =>
      obtain ⟨v, hrun, -⟩ := run_placeCopy_of_detached hs hparent selector
      rw [Runs, hrun] at hplace
      cases hplace
    | some parent =>
      obtain ⟨v, hrun, hplaced, hselector, hchildren⟩ :=
        run_placeCopy_of_parent hs hparent selector
      rw [Runs] at hplace hrun
      rw [hrun] at hplace
      cases hplace
      obtain ⟨hplaced', hgrows⟩ := hplaced.expandCopy hs (hs.parent_lt_size hparent) vendor
      rw [hexpand.final_eq] at hplaced' hgrows
      refine ⟨parent, hplaced', ⟨⟨hplaced'.isForest, hplaced'.grows⟩, hparent, ?_⟩, ?_⟩
      · intro group hlt
        rw [hplaced.children_eq hplaced' hgrows hlt, hchildren group hlt]
      · rw [hgrows.selector? (Nat.lt_succ_self _), hselector hgroup]

/-- One step of a visit to a node: a declaration that it wants is put behind it, or a vendor's copy
is put behind the keyframes block around it. -/
inductive Step (vendors : VendorSet) (id : NodeId) (s t : Sheet) : Prop
  | declared {parent : NodeId} {d : Declaration} {demand : Demand}
    (haround : s.keyframesAround id = none) (hd : s.declaration? id = some d)
    (hdemand : demand ∈ demands vendors d) (hunmet : ¬ demand.Met s id)
    (hgraft : Grafted s t id parent) (hnew : t.declaration? s.size = some demand.declaration)
  | copied {keyframes parent : NodeId} {selector : String} {vendor : Vendor}
    (haround : s.keyframesAround keyframes = none)
    (hblock : s.keyframes? keyframes = some (.plain keyframes))
    (hselector : s.selector? keyframes = some selector) (hvendor : vendors.contains vendor = true)
    (hunmet : copySelector selector vendor ∉ besideSelectors s keyframes)
    (hgraft : Grafted s t keyframes parent)
    (hnew : t.selector? s.size = some (copySelector selector vendor))

/-- Every step puts one more child somewhere outside of keyframes. -/
theorem Step.exists_grafted (h : Step vendors id s t) :
    ∃ anchor parent, s.keyframesAround anchor = none ∧ Grafted s t anchor parent := by
  cases h with
  | declared haround _ _ _ hgraft => exact ⟨_, _, haround, hgraft⟩
  | copied haround _ _ _ _ hgraft => exact ⟨_, _, haround, hgraft⟩

theorem Step.growth (h : Step vendors id s t) : Extends s t := by
  obtain ⟨_, _, _, hgraft⟩ := h.exists_grafted
  exact hgraft.growth

/-- Meeting demands is a chain of steps, one for each demand that was not met. The demands must be
those of the declaration, in any order. -/
theorem steps_of_runs_forM_meet {d : Declaration} {wanted : List Demand} (hs : s.IsForest)
    (haround : s.keyframesAround id = none) (hd : s.declaration? id = some d)
    (hwanted : ∀ demand ∈ wanted, demand ∈ demands vendors d)
    (h : Runs (wanted.forM (Demand.meet id)) s () t) :
    Relation.ReflTransGen (Step vendors id) s t := by
  induction wanted generalizing s with
  | nil =>
    obtain rfl := runs_forM_nil_iff.1 h
    exact .refl
  | cons demand wanted ih =>
    have hrest : ∀ other ∈ wanted, other ∈ demands vendors d :=
      fun other hother => hwanted other (List.mem_cons_of_mem _ hother)
    obtain ⟨u, hhead, htail⟩ := runs_forM_cons_iff.1 h
    rcases Demand.runs_meet_iff.1 hhead with ⟨-, rfl⟩ | ⟨hunmet, new, hinsert⟩
    · exact ih hs haround hd hrest htail
    · obtain ⟨parent, hgraft, hnew⟩ := grafted_of_runs_insertDeclarationAfter hs hinsert
      have hid : id < s.size := lt_size_of_parent? hgraft.parent_eq
      have hstep : Step vendors id s u :=
        .declared haround hd (hwanted demand List.mem_cons_self) hunmet hgraft hnew
      refine .head hstep (ih hgraft.growth.1 ?_ ?_ hrest htail)
      · rw [hgraft.growth.2.keyframesAround hs hgraft.growth.1 hid, haround]
      · rw [hgraft.growth.2.declaration? hid, hd]

/-- Copying a block for several vendors is a chain of steps. The vendors must be enabled, and may
come in any order. -/
theorem steps_of_runs_forM_copyKeyframes {keyframes : NodeId} {selector : String}
    {copiers : List Vendor} (hs : s.IsForest) (haround : s.keyframesAround keyframes = none)
    (hblock : s.keyframes? keyframes = some (.plain keyframes))
    (hselector : s.selector? keyframes = some selector)
    (hcopiers : ∀ vendor ∈ copiers, vendors.contains vendor = true)
    (h : Runs (copiers.forM fun vendor =>
      copyKeyframes keyframes (copySelector selector vendor) vendor) s () t) :
    Relation.ReflTransGen (Step vendors id) s t := by
  induction copiers generalizing s with
  | nil =>
    obtain rfl := runs_forM_nil_iff.1 h
    exact .refl
  | cons vendor copiers ih =>
    have hrest : ∀ other ∈ copiers, vendors.contains other = true :=
      fun other hother => hcopiers other (List.mem_cons_of_mem _ hother)
    obtain ⟨u, hhead, htail⟩ := runs_forM_cons_iff.1 h
    obtain ⟨g, hg, -⟩ := Option.bind_eq_some_iff.1 hselector
    have hlt : keyframes < s.size := lt_size_of_node? (group?_eq_some_iff.1 hg)
    rcases runs_copyKeyframes_cases hs (by rw [hg]; rfl) hhead with
      ⟨-, rfl⟩ | ⟨hunmet, parent, -, hgraft, hnew⟩
    · exact ih hs haround hblock hselector hrest htail
    · have hstep : Step vendors id s u :=
        .copied haround hblock hselector (hcopiers vendor List.mem_cons_self) hunmet hgraft hnew
      have hselector' := hgraft.growth.2.selector? hlt
      refine .head hstep (ih hgraft.growth.1 ?_ ?_ ?_ hrest htail)
      · rw [hgraft.growth.2.keyframesAround hs hgraft.growth.1 hlt, haround]
      · rw [keyframes?, hselector', ← keyframes?, hblock]
      · rw [hselector', hselector]

/-- A visit is a chain of steps. -/
theorem steps_of_runs_expandAt (hs : s.IsForest) (h : Runs (expandAt vendors id) s () t) :
    Relation.ReflTransGen (Step vendors id) s t := by
  rw [expandAt, runs_get_bind_iff] at h
  cases haround : s.keyframesAround id with
  | none =>
    rw [haround] at h
    dsimp only at h
    rw [expandDeclaration_eq, runs_get_bind_iff] at h
    cases hd : s.declaration? id with
    | none =>
      rw [hd] at h
      obtain ⟨-, rfl⟩ := runs_pure_iff.1 h
      exact .refl
    | some d =>
      rw [hd] at h
      exact steps_of_runs_forM_meet hs haround hd (fun _ hdemand => hdemand) h
  | some around =>
    rw [haround] at h
    cases around with
    | vendored =>
      obtain ⟨-, rfl⟩ := runs_pure_iff.1 h
      exact .refl
    | plain keyframes =>
      obtain ⟨-, hblock, houter⟩ := hs.keyframesAround_eq_plain haround
      obtain ⟨-, selector, hselector, -⟩ := keyframes?_eq_plain hblock
      dsimp only at h
      rw [expandKeyframes, runs_get_bind_iff, hselector] at h
      refine steps_of_runs_forM_copyKeyframes hs houter hblock hselector ?_ h
      exact fun vendor hvendor => (List.mem_filter.1 hvendor).2

/-- What every step of a visit keeps, the visit keeps. The visit may add nothing at all. -/
theorem runs_expandAt_induction {motive : Sheet → Prop}
    (hstep : ∀ t u, t.IsForest → motive t → Step vendors id t u → motive u) (hs : s.IsForest)
    (h : motive s) (hrun : Runs (expandAt vendors id) s () t) : t.IsForest ∧ motive t := by
  have hsteps := steps_of_runs_expandAt hs hrun
  clear hrun
  induction hsteps with
  | refl => exact ⟨hs, h⟩
  | tail _ hnext ih => exact ⟨hnext.growth.1, hstep _ _ ih.1 ih.2 hnext⟩

/-- What every step at a node from `first` on keeps, rounds of visits to such nodes keep. The first
rounds may visit old nodes, if `first` lies that low. -/
theorem runs_visitRounds_induction {motive : Sheet → Prop} {rounds : Nat} {first : NodeId}
    (hstep : ∀ id t u, first ≤ id → t.IsForest → motive t → Step vendors id t u → motive u)
    (hs : s.IsForest) (hfirst : first ≤ s.size) (h : motive s)
    (hrun : Runs (visitRounds (expandAt vendors) group rounds first) s () t) : motive t := by
  induction rounds generalizing s first with
  | zero =>
    obtain ⟨-, rfl⟩ := runs_pure_iff.1 hrun
    exact h
  | succ rounds ih =>
    rw [visitRounds, runs_get_bind_iff] at hrun
    dsimp only at hrun
    split at hrun
    · obtain ⟨-, rfl⟩ := runs_pure_iff.1 hrun
      exact h
    · obtain ⟨⟨⟩, u, hround, hrest⟩ := runs_bind_iff.1 hrun
      have hkeeps : (u.IsForest ∧ motive u) ∧ s.size ≤ u.size := by
        refine runs_forM_induction
          (motive := fun _ (v : Sheet) => (v.IsForest ∧ motive v) ∧ s.size ≤ v.size) ?_
          ⟨⟨hs, h⟩, Nat.le_refl _⟩ hround
        intro done id rest v w hids ⟨⟨hv, hmotive⟩, hsize⟩ hvisit
        have hle : first ≤ id := by
          have hmem : id ∈ (s.declarations group).filter (first ≤ ·) := by rw [hids]; simp
          simpa using (List.mem_filter.1 hmem).2
        refine ⟨runs_expandAt_induction (hstep id · · hle) hv hmotive hvisit, ?_⟩
        have hextends := extends_expandAt vendors id hv
        rw [hvisit.final_eq] at hextends
        exact Nat.le_trans hsize hextends.2.size_le
      refine ih (fun id v w hle => ?_) hkeeps.1.1 hkeeps.2 hkeeps.1.2 hrest
      exact hstep id v w (Nat.le_trans hfirst hle)

end

end Sheetsmith.Vendor
