import Sheetsmith.Proofs.Text.Parts
import Sheetsmith.Proofs.Vendor.Visiting

namespace Sheetsmith.Vendor

open Sheet Edit

section

variable {vendors : VendorSet} {s t u : Sheet} {id group : NodeId}

/-- The declarations below a group are those from which the way up leads to it. -/
theorem mem_declarations_iff (hs : s.IsForest) :
    id ∈ s.declarations group ↔ s.Below id group ∧ (s.declaration? id).isSome := by
  rw [declarations, descendantsOfKind, List.mem_filter, hs.mem_descendants_iff, kind?, declaration?]
  cases s.node? id with
  | none => simp
  | some node => cases node <;> simp [Node.kind]

theorem lt_size_of_mem_declarations (hs : s.IsForest) (h : id ∈ s.declarations group) :
    id < s.size ∧ group < s.size := by
  have hbelow := ((mem_declarations_iff hs).1 h).1
  obtain ⟨up, hup, -⟩ := Relation.TransGen.head'_iff.1 hbelow
  obtain ⟨child, -, hparent⟩ := Relation.TransGen.tail'_iff.1 hbelow
  exact ⟨lt_size_of_parent? hup, hs.parent_lt_size hparent⟩

/-- What a round of visits comes to: nothing is left to do at the visited nodes, and there is less
to do at the new ones. -/
theorem runs_forM_expandAt {ids : List NodeId} {bound : Nat} (hs : s.IsForest)
    (hids : ∀ id ∈ ids, id < s.size ∧ work s id ≤ bound)
    (h : Runs (ids.forM (expandAt vendors)) s () t) :
    Adds s t bound ∧ ∀ id ∈ ids, Settled vendors t id := by
  induction ids generalizing s with
  | nil =>
    obtain rfl := runs_forM_nil_iff.1 h
    exact ⟨.refl hs bound, by simp⟩
  | cons id ids ih =>
    obtain ⟨u, hhead, htail⟩ := runs_forM_cons_iff.1 h
    obtain ⟨hid, hwork⟩ := hids id (by simp)
    obtain ⟨hadds, hsettled⟩ := runs_expandAt hs hid hhead
    have hids' : ∀ other ∈ ids, other < u.size ∧ work u other ≤ bound := by
      intro other hother
      obtain ⟨hlt, hle⟩ := hids other (by simp [hother])
      rw [hadds.growth.work_eq hs hlt]
      exact ⟨Nat.lt_of_lt_of_le hlt hadds.growth.2.size_le, hle⟩
    obtain ⟨hadds', hsettled'⟩ := ih hadds.growth.1 hids' htail
    refine ⟨(hadds.mono hwork).trans hadds', fun other hother => ?_⟩
    rcases List.mem_cons.1 hother with rfl | hother
    · exact hsettled.of_extends hadds.growth.1 hadds'.growth
        (Nat.lt_of_lt_of_le hid hadds.growth.2.size_le)
    · exact hsettled' other hother

/-- Rounds of visits settle all declarations below a group, if those before `first` are settled and
none of the others gives work for as many rounds. -/
theorem runs_visitRounds {rounds : Nat} {first : NodeId} (hs : s.IsForest)
    (hdone : ∀ id ∈ s.declarations group, id < first → Settled vendors s id)
    (hwork : ∀ id ∈ s.declarations group, first ≤ id → work s id < rounds)
    (h : Runs (visitRounds (expandAt vendors) group rounds first) s () t) :
    ∀ id ∈ t.declarations group, Settled vendors t id := by
  induction rounds generalizing s first with
  | zero =>
    obtain ⟨-, rfl⟩ := runs_pure_iff.1 h
    refine fun id hid => hdone id hid (Nat.lt_of_not_le fun hle => ?_)
    exact Nat.not_lt_zero _ (hwork id hid hle)
  | succ rounds ih =>
    rw [visitRounds, runs_get_bind_iff] at h
    dsimp only at h
    split at h
    · next hnone =>
      obtain ⟨-, rfl⟩ := runs_pure_iff.1 h
      refine fun id hid => hdone id hid (Nat.lt_of_not_le fun hle => ?_)
      have hmem : id ∈ (s.declarations group).filter (first ≤ ·) :=
        List.mem_filter.2 ⟨hid, by simpa using hle⟩
      rw [List.isEmpty_iff.1 hnone] at hmem
      cases hmem
    · next hsome =>
      obtain ⟨⟨⟩, u, hround, hrest⟩ := runs_bind_iff.1 h
      have hpending : ∀ id ∈ (s.declarations group).filter (first ≤ ·),
          id < s.size ∧ work s id ≤ rounds := by
        intro id hid
        obtain ⟨hid, hle⟩ := List.mem_filter.1 hid
        exact ⟨(lt_size_of_mem_declarations hs hid).1,
          Nat.le_of_lt_succ (hwork id hid (by simpa using hle))⟩
      obtain ⟨hadds, hsettled⟩ := runs_forM_expandAt hs hpending hround
      have hgroup : group < s.size := by
        obtain ⟨id, hid⟩ := List.exists_mem_of_ne_nil _ (mt List.isEmpty_iff.2 hsome)
        exact (lt_size_of_mem_declarations hs (List.mem_filter.1 hid).1).2
      -- The nodes of the next round are those that this round has added.
      refine ih hadds.growth.1 (fun id hid hlt => ?_) (fun id hid hle => ?_) hrest
      · obtain ⟨hbelow, hd⟩ := (mem_declarations_iff hadds.growth.1).1 hid
        have hold : id ∈ s.declarations group := by
          refine (mem_declarations_iff hs).2 ⟨hadds.growth.below_of_below hs hlt hbelow, ?_⟩
          rwa [hadds.growth.2.declaration? hlt] at hd
        by_cases hfirst : id < first
        · exact (hdone id hold hfirst).of_extends hs hadds.growth hlt
        · exact hsettled id (List.mem_filter.2 ⟨hold, by simpa using Nat.le_of_not_lt hfirst⟩)
      · obtain ⟨hbelow, hd⟩ := (mem_declarations_iff hadds.growth.1).1 hid
        exact hadds.work_lt id group hle hgroup hbelow hd

/-- No declaration gives work for as many rounds as there may be, so all are settled in the end. -/
theorem settled_of_runs_expand (hs : s.IsForest) (h : Runs (expand vendors group) s () t) :
    ∀ id ∈ t.declarations group, Settled vendors t id :=
  runs_visitRounds hs (fun id _ hlt => absurd hlt (Nat.not_lt_zero id))
    (fun id _ _ => Nat.lt_of_le_of_lt (work_le s id) (by decide)) h

/-- Where all declarations are settled, rounds of visits change nothing, however many there may be.
Where the rounds start does not matter either. -/
theorem runs_visitRounds_of_settled
    (h : ∀ id ∈ s.declarations group, Settled vendors s id) (rounds : Nat) (first : NodeId) :
    Runs (visitRounds (expandAt vendors) group rounds first) s () s := by
  induction rounds generalizing first with
  | zero => exact runs_pure_iff.2 ⟨rfl, rfl⟩
  | succ rounds ih =>
    rw [visitRounds, runs_get_bind_iff]
    dsimp only
    split
    · exact runs_pure_iff.2 ⟨rfl, rfl⟩
    · refine runs_bind_iff.2 ⟨(), s, runs_forM_of_forall fun id hid => ?_, ih s.size⟩
      exact (h id (List.mem_filter.1 hid).1).runs

end

/-- Adding vendor forms a second time changes nothing: where the first time went through, so does
the second, and the sheet stays as it is. The sheet may be any forest and the group any number; that
the first time does go through in a document is shown elsewhere. -/
theorem expand_expand {s t : Sheet} (hs : s.IsForest) (vendors : VendorSet) (group : NodeId)
    (h : (expand vendors group).run.run s = (.ok (), t)) :
    (expand vendors group).run.run t = (.ok (), t) :=
  runs_visitRounds_of_settled (settled_of_runs_expand hs h) roundLimit 0

/-- A blank text lists no vendor. -/
theorem ofText_of_isAllBlank {text : String} (h : Text.isAllBlank text = true) :
    VendorSet.ofText text = .ofPred fun _ => false := by
  have hblank : Text.AllBlank text.toList := (Text.isAllBlank_iff text).1 h
  have htrim : Text.trim text.toList = [] := by
    have htrim := Text.trim_blank_append hblank []
    rwa [List.append_nil] at htrim
  have hsplit : Text.splitAtEach ',' text.toList = [text.toList] := by
    rw [Text.splitAtEach_eq_splitOn]
    exact List.splitOn_eq_singleton (hblank.not_mem (by decide))
  have hall : Text.sameFold (Text.trimmed text) "all" = false := by
    rw [Text.trimmed, htrim]
    decide
  have hname : Vendor.ofName? (String.ofList []) = none := by decide
  rw [VendorSet.ofText, hall, hsplit]
  simp only [Bool.false_eq_true, if_false, List.filterMap_cons, List.filterMap_nil, htrim, hname]
  rfl

/-- Where no vendor is asked for, nothing is wanted anywhere. -/
theorem settled_of_none (s : Sheet) (id : NodeId) :
    Settled (.ofPred fun _ => false) s id := by
  have hdemands (d : Declaration) : demands (.ofPred fun _ => false) d = [] := by
    unfold demands
    cases VendorRule.ofProperty (Text.folded d.name) with
    | renamed forms => rfl
    | filterTwin => rfl
    | opacityFilters =>
      dsimp only
      cases opacityPercent? d.value <;> rfl
    | wrapKeywords =>
      dsimp only
      split <;> rfl
    | gradients =>
      dsimp only
      refine List.flatMap_eq_nil_iff.2 fun gradient _ => ?_
      unfold gradientDemands
      split
      · cases Gradient.filter? d.value <;> rfl
      · rfl
  unfold Settled
  split
  · intro selector _ vendor hvendor
    cases hvendor
  · trivial
  · intro d _ demand hdemand
    rw [hdemands] at hdemand
    cases hdemand

/-- Where no vendor is asked for, nothing is added. No forest is needed. -/
theorem expand_of_isAllBlank {vendors : String} (h : Text.isAllBlank vendors = true) (s : Sheet)
    (group : NodeId) : (expand (.ofText vendors) group).run.run s = (.ok (), s) := by
  rw [ofText_of_isAllBlank h]
  exact runs_visitRounds_of_settled (fun id _ => settled_of_none s id) roundLimit 0

/-- A sheet with a keyframes block and a declaration whose vendor form has a vendor
form of its own. -/
def maskSheet : Sheet :=
  ofEvents [.opened (some "@keyframes x"), .declaration "zoom" "1", .closed, .opened (some "a"),
    .declaration "mask" "radial-gradient(red)", .closed]

theorem expand_expand_maskSheet :
    let vendors := VendorSet.ofPred fun vendor => vendor = .webkit || vendor = .msie
    let t := ((expand vendors root).run.run maskSheet).2
    (expand vendors root).run.run maskSheet = (.ok (), t) ∧ maskSheet.size < t.size ∧
      (expand vendors root).run.run t = (.ok (), t) := by
  intro vendors t
  have hrun : ((expand vendors root).run.run maskSheet).1 = .ok () ∧ maskSheet.size < t.size := by
    decide +kernel
  have h : (expand vendors root).run.run maskSheet = (.ok (), t) := Prod.ext hrun.1 rfl
  exact ⟨h, hrun.2, expand_expand (isForest_ofEvents _) vendors root h⟩

end Sheetsmith.Vendor
