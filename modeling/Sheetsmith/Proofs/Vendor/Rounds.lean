import Sheetsmith.Proofs.Sheet.Document
import Sheetsmith.Proofs.Vendor.FixedPoint

namespace Sheetsmith.Vendor

open Sheet Edit

/-- The declarations that a round visits. -/
def pending (s : Sheet) (group first : NodeId) : List NodeId :=
  (s.declarations group).filter (first ≤ ·)

/-- Rounds of visits go on, without any limit, until a round has nothing to visit. -/
inductive RunsDry (visit : NodeId → Edit Unit) (group : NodeId) : NodeId → Sheet → Sheet → Prop
  | dry {first : NodeId} {s : Sheet} (hnone : pending s group first = []) :
    RunsDry visit group first s s
  | round {first : NodeId} {s t u : Sheet} (hsome : pending s group first ≠ [])
    (hround : Runs ((pending s group first).forM visit) s () t)
    (hrest : RunsDry visit group s.size t u) : RunsDry visit group first s u

/-- A round goes through when there is nothing to visit, or when its visits do and the next rounds
do. The next rounds start at the nodes that this one added. -/
theorem runs_visitRounds_succ_iff {visit : NodeId → Edit Unit} {group first : NodeId}
    {rounds : Nat} {s t : Sheet} :
    Runs (visitRounds visit group (rounds + 1) first) s () t ↔
      Runs (if (pending s group first).isEmpty then pure ()
        else (pending s group first).forM visit >>= fun _ =>
          visitRounds visit group rounds s.size) s () t :=
  Iff.rfl

/-- Rounds of visits run dry, and no limit is met, if a round goes through and adds only
declarations that give work for fewer rounds than those it visits. -/
theorem exists_runsDry {visit : NodeId → Edit Unit} {group : NodeId} {holds : Sheet → Prop}
    {load : Sheet → NodeId → Nat}
    (hvisits : ∀ (s : Sheet) (first : NodeId) (bound : Nat), holds s →
      (∀ id ∈ pending s group first, load s id ≤ bound) →
      ∃ t, Runs ((pending s group first).forM visit) s () t ∧ holds t ∧
        ∀ id ∈ pending t group s.size, load t id < bound)
    {rounds : Nat} {first : NodeId} {s : Sheet} (hs : holds s)
    (hload : ∀ id ∈ pending s group first, load s id < rounds) :
    ∃ t, Runs (visitRounds visit group rounds first) s () t ∧ RunsDry visit group first s t ∧
      holds t := by
  induction rounds generalizing s first with
  | zero =>
    have hnone : pending s group first = [] :=
      List.eq_nil_iff_forall_not_mem.2 fun id hid => Nat.not_lt_zero _ (hload id hid)
    exact ⟨s, runs_pure_iff.2 ⟨rfl, rfl⟩, .dry hnone, hs⟩
  | succ rounds ih =>
    by_cases hnone : pending s group first = []
    · refine ⟨s, ?_, .dry hnone, hs⟩
      rw [runs_visitRounds_succ_iff, if_pos (List.isEmpty_iff.2 hnone)]
      exact runs_pure_iff.2 ⟨rfl, rfl⟩
    · obtain ⟨t, hround, ht, hnew⟩ :=
        hvisits s first rounds hs fun id hid => Nat.le_of_lt_succ (hload id hid)
      obtain ⟨u, hrest, hdry, hu⟩ := ih ht hnew
      refine ⟨u, ?_, .round hnone hround hdry, hu⟩
      rw [runs_visitRounds_succ_iff, if_neg (mt List.isEmpty_iff.1 hnone)]
      exact runs_bind_iff.2 ⟨(), t, hround, hrest⟩

section

variable {s t u : Sheet} {id : NodeId}

/-- Beside a node with a parent there is a place for whatever it wants. Demands that are met already
are passed over. -/
theorem exists_runs_forM_meet {demands : List Demand}
    (hself : ∀ demand ∈ demands, demand.clash demand.declaration = true) (hs : s.IsForest)
    (hparent : (s.parent? id).isSome) : ∃ t, Runs (demands.forM (Demand.meet id)) s () t := by
  induction demands generalizing s with
  | nil => exact ⟨s, runs_forM_nil_iff.2 rfl⟩
  | cons demand demands ih =>
    obtain ⟨parent, hup⟩ := Option.isSome_iff_exists.1 hparent
    have hhead : ∃ t, Runs (demand.meet id) s () t := by
      by_cases hmet : demand.Met s id
      · exact ⟨s, hmet.runs_meet⟩
      · have hinsert := run_insertDeclarationAfter hs id demand.declaration.name
          demand.declaration.value
        rw [hup] at hinsert
        exact ⟨_, Demand.runs_meet_iff.2 (.inr ⟨hmet, s.size, hinsert⟩)⟩
    obtain ⟨t, hhead⟩ := hhead
    obtain ⟨hextends, -⟩ := Demand.runs_meet (hself demand (by simp)) hs hhead
    have hparent' : (t.parent? id).isSome := by
      rwa [hextends.2.parent id (lt_size_of_parent? hup)]
    obtain ⟨u, htail⟩ := ih (fun d hd => hself d (by simp [hd])) hextends.1 hparent'
    exact ⟨u, runs_forM_cons_iff.2 ⟨t, hhead, htail⟩⟩

/-- A visit that lets a declaration give way to its forms does what a visit does that does not, and
then takes the declaration out or leaves it. -/
theorem exists_run_expandDeclaration (vendors : VendorSet) (replace : Bool) (id : NodeId)
    (s : Sheet) :
    ∃ gone : Bool, (expandDeclaration vendors replace id).run.run s =
      let kept := (expandDeclaration vendors false id).run.run s
      (kept.1, if gone then kept.2.remove id else kept.2) := by
  have hsame (kept : Except SheetError Unit × Sheet) :
      ∃ gone : Bool, kept = (kept.1, if gone then kept.2.remove id else kept.2) := ⟨false, rfl⟩
  unfold expandDeclaration
  simp only [run_get_bind]
  cases s.declaration? id with
  | none => exact hsame _
  | some d =>
    dsimp only
    cases VendorRule.ofProperty (Text.folded d.name) with
    | renamed forms =>
      dsimp only
      rw [run_bind, run_bind]
      rcases (addRenamed id d.value (forms.within vendors)).run.run s with ⟨r, t⟩
      cases r with
      | error e => exact ⟨false, rfl⟩
      | ok added =>
        refine ⟨added && replace, ?_⟩
        dsimp only
        rw [Bool.and_false]
        cases added && replace <;> rfl
    | filterTwin | opacityFilters | wrapKeywords | gradients => exact hsame _

/-- What visits have made of a sheet, whether or not declarations gave way to their
forms: the old declarations say what they said, and the new ones give work for fewer
than `bound` rounds. -/
structure Dwindles (s t : Sheet) (bound : Nat) : Prop where
  isForest : t.IsForest
  size_le : s.size ≤ t.size
  declaration_old : ∀ id < s.size, t.declaration? id = s.declaration? id
  rank_lt : ∀ id d, s.size ≤ id → t.declaration? id = some d → rank d < bound

theorem Dwindles.refl (hs : s.IsForest) (bound : Nat) : Dwindles s s bound := by
  refine ⟨hs, Nat.le_refl _, fun _ _ => rfl, fun id d hid hd => ?_⟩
  exact absurd (lt_size_of_node? (declaration?_eq_some_iff.1 hd)) (Nat.not_lt.2 hid)

theorem Dwindles.trans {bound : Nat} (h : Dwindles s t bound) (h' : Dwindles t u bound) :
    Dwindles s u bound := by
  refine ⟨h'.isForest, Nat.le_trans h.size_le h'.size_le, fun id hid => ?_, fun id d hid hd => ?_⟩
  · rw [h'.declaration_old id (Nat.lt_of_lt_of_le hid h.size_le), h.declaration_old id hid]
  · by_cases hlt : id < t.size
    · rw [h'.declaration_old id hlt] at hd
      exact h.rank_lt id d hid hd
    · exact h'.rank_lt id d (Nat.le_of_not_lt hlt) hd

theorem Dwindles.remove {bound : Nat} (h : Dwindles s t bound) (id : NodeId) :
    Dwindles s (t.remove id) bound := by
  refine ⟨h.isForest.remove id, by rw [size_remove]; exact h.size_le, fun other hother => ?_,
    fun other d hother hd => ?_⟩
  · rw [declaration?_remove, h.declaration_old other hother]
  · rw [declaration?_remove] at hd
    exact h.rank_lt other d hother hd

/-- A visit to a declaration in the tree goes through, and what it adds gives work for fewer rounds
than the declaration. -/
theorem exists_runs_expandDeclaration (vendors : VendorSet) (replace : Bool) {bound : Nat}
    (hs : s.IsForest) (hparent : (s.parent? id).isSome)
    (hrank : ∀ d, s.declaration? id = some d → rank d ≤ bound) :
    ∃ t, Runs (expandDeclaration vendors replace id) s () t ∧ Dwindles s t bound ∧
      ∀ other < s.size, other ≠ id → t.parent? other = s.parent? other := by
  obtain ⟨parent, hup⟩ := Option.isSome_iff_exists.1 hparent
  have hid : id < s.size := lt_size_of_parent? hup
  have hadds : ∃ u, Runs (expandDeclaration vendors false id) s () u ∧ Dwindles s u bound ∧
      ∀ other < s.size, u.parent? other = s.parent? other := by
    simp only [expandDeclaration_eq, runs_get_bind_iff]
    cases hd : s.declaration? id with
    | none => exact ⟨s, runs_pure_iff.2 ⟨rfl, rfl⟩, .refl hs bound, fun _ _ => rfl⟩
    | some d =>
      have hwanted (demand : Demand) (hdemand : demand ∈ demands vendors d) : Wanted d demand :=
        wanted_of_mem_demands hdemand
      have hself (demand : Demand) (hdemand : demand ∈ demands vendors d) :=
        (hwanted demand hdemand).clash
      obtain ⟨u, hrun⟩ := exists_runs_forM_meet hself hs hparent
      obtain ⟨hextends, -, hnew⟩ := Demand.runs_forM_meet hself hs hid hrun
      refine ⟨u, hrun, ⟨hextends.1, hextends.2.size_le, fun _ => hextends.2.declaration?, ?_⟩,
        hextends.2.parent⟩
      intro other e hother he
      obtain ⟨demand, hdemand, hdeclaration, -⟩ :=
        hnew other hother (lt_size_of_node? (declaration?_eq_some_iff.1 he))
      rw [he] at hdeclaration
      cases hdeclaration
      exact Nat.lt_of_lt_of_le (hwanted demand hdemand).rank_lt (hrank d hd)
  obtain ⟨u, hfalse, hdwindles, hparents⟩ := hadds
  obtain ⟨gone, hrun⟩ := exists_run_expandDeclaration vendors replace id s
  rw [hfalse] at hrun
  refine ⟨_, hrun, ?_⟩
  cases gone with
  | false => exact ⟨hdwindles, fun other hother _ => hparents other hother⟩
  | true =>
    refine ⟨hdwindles.remove id, fun other hother hne => ?_⟩
    dsimp only
    rw [if_pos rfl, parent?_remove, if_neg hne, hparents other hother]

/-- A round of visits goes through: no visit takes out what another one is still to visit. The nodes
must be distinct and have parents, as one that was taken out has none. -/
theorem exists_runs_forM_expandDeclaration (vendors : VendorSet) (replace : Bool)
    {ids : List NodeId} {bound : Nat} (hs : s.IsForest) (hnodup : ids.Nodup)
    (hparent : ∀ id ∈ ids, (s.parent? id).isSome)
    (hrank : ∀ id ∈ ids, ∀ d, s.declaration? id = some d → rank d ≤ bound) :
    ∃ t, Runs (ids.forM (expandDeclaration vendors replace)) s () t ∧ Dwindles s t bound := by
  induction ids generalizing s with
  | nil => exact ⟨s, runs_forM_nil_iff.2 rfl, .refl hs bound⟩
  | cons id ids ih =>
    obtain ⟨hfresh, hnodup⟩ := List.nodup_cons.1 hnodup
    obtain ⟨t, hhead, hdwindles, hparents⟩ := exists_runs_expandDeclaration vendors replace hs
      (hparent id (by simp)) (hrank id (by simp))
    have hlt : ∀ other ∈ ids, other < s.size := by
      intro other hother
      obtain ⟨parent, hup⟩ := Option.isSome_iff_exists.1 (hparent other (by simp [hother]))
      exact lt_size_of_parent? hup
    have hparent' : ∀ other ∈ ids, (t.parent? other).isSome := by
      intro other hother
      rw [hparents other (hlt other hother) (ne_of_mem_of_not_mem hother hfresh)]
      exact hparent other (by simp [hother])
    have hrank' : ∀ other ∈ ids, ∀ d, t.declaration? other = some d → rank d ≤ bound := by
      intro other hother d hd
      rw [hdwindles.declaration_old other (hlt other hother)] at hd
      exact hrank other (by simp [hother]) d hd
    obtain ⟨u, htail, hdwindles'⟩ := ih hdwindles.isForest hnodup hparent' hrank'
    exact ⟨u, runs_forM_cons_iff.2 ⟨t, hhead, htail⟩, hdwindles.trans hdwindles'⟩

theorem isSome_parent?_of_below {top : NodeId} (h : s.Below id top) : (s.parent? id).isSome := by
  obtain ⟨parent, hparent, -⟩ := Relation.TransGen.head'_iff.1 h
  rw [hparent]
  rfl

/-- Inside every group of every forest the rounds of visits run dry before they meet their limit,
whether or not declarations give way to their forms. -/
theorem exists_runsDry_expandDeclaration (vendors : VendorSet) (replace : Bool) (group : NodeId)
    (hs : s.IsForest) :
    ∃ t, Runs (visitRounds (expandDeclaration vendors replace) group roundLimit 0) s () t ∧
      RunsDry (expandDeclaration vendors replace) group 0 s t := by
  let load (s : Sheet) (id : NodeId) : Nat := ((s.declaration? id).map rank).getD 0
  have hload {s : Sheet} {id : NodeId} {d : Declaration} (hd : s.declaration? id = some d) :
      load s id = rank d := by
    simp only [load, hd, Option.map_some, Option.getD_some]
  have hvisits : ∀ (s : Sheet) (first : NodeId) (bound : Nat), s.IsForest →
      (∀ id ∈ pending s group first, load s id ≤ bound) →
      ∃ t, Runs ((pending s group first).forM (expandDeclaration vendors replace)) s () t ∧
        t.IsForest ∧ ∀ id ∈ pending t group s.size, load t id < bound := by
    intro s first bound hs hbound
    have hnodup : (pending s group first).Nodup :=
      ((hs.nodup_of_spans (hs.spans_descendants group)).filter _).filter _
    have hbelow : ∀ id ∈ pending s group first, s.Below id group := fun id hid =>
      ((mem_declarations_iff hs).1 (List.mem_filter.1 hid).1).1
    obtain ⟨t, hrun, hdwindles⟩ := exists_runs_forM_expandDeclaration vendors replace hs hnodup
      (fun id hid => isSome_parent?_of_below (hbelow id hid))
      fun id hid d hd => hload hd ▸ hbound id hid
    refine ⟨t, hrun, hdwindles.isForest, fun id hid => ?_⟩
    obtain ⟨hid, hnew⟩ := List.mem_filter.1 hid
    obtain ⟨d, hd⟩ := Option.isSome_iff_exists.1 ((mem_declarations_iff hdwindles.isForest).1 hid).2
    rw [hload hd]
    exact hdwindles.rank_lt id d (by simpa using hnew) hd
  have hstart : ∀ id ∈ pending s group 0, load s id < roundLimit := by
    intro id hid
    obtain ⟨d, hd⟩ := Option.isSome_iff_exists.1
      ((mem_declarations_iff hs).1 (List.mem_filter.1 hid).1).2
    rw [hload hd]
    exact Nat.lt_of_le_of_lt (rank_le d) (by decide)
  obtain ⟨t, hrun, hdry, -⟩ := exists_runsDry hvisits hs hstart
  exact ⟨t, hrun, hdry⟩

end

end Sheetsmith.Vendor
