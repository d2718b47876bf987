import Mathlib.Data.List.TakeWhile
import Sheetsmith.Proofs.Optimize.Rules
import Sheetsmith.Proofs.Vendor.Blocks
import Sheetsmith.Proofs.Vendor.Names

namespace Sheetsmith.Vendor

open Sheet Edit

/-- The first child of a group that is a declaration which the vendors know under a name. -/
def firstToWant? (vendors : VendorSet) (s : Sheet) (group : NodeId) (name : String) :
    Option NodeId :=
  (s.children group).find? fun id => (s.declaration? id).any fun d =>
    (formNames vendors d).contains name

/-- The last of the old children of a group that stand in front of a new one. -/
def lastOldBefore? (s t : Sheet) (group new : NodeId) : Option NodeId :=
  (((t.children group).takeWhile (· != new)).filter (· < s.size)).getLast?

/-- A new declaration of a group that stands behind an old one, with new nodes at most between them,
and has its name for itself. -/
structure IsOnlyCopy (s t : Sheet) (group anchor : NodeId) (copy : Declaration) (new : NodeId) :
    Prop where
  new_mem : new ∈ t.children group
  le_new : s.size ≤ new
  declaration : t.declaration? new = some copy
  behind : lastOldBefore? s t group new = some anchor
  only : ∀ other ∈ t.children group, ∀ e, t.declaration? other = some e →
    e.isNamed copy.name = true → other = new

/-- Whatever a group declares under the name of a copy is the only copy. -/
def OnlyCopies (s t : Sheet) (group anchor : NodeId) (copy : Declaration) : Prop :=
  ∀ new ∈ t.children group, ∀ e, t.declaration? new = some e → e.isNamed copy.name = true →
    IsOnlyCopy s t group anchor copy new

/-- What stands in front of `b` in one split of a list, and behind no `b`, does so in every split.
-/
theorem mem_front_of_append_eq {α : Type} {front back front' back' : List α} {a b : α}
    (h : front ++ a :: back = front' ++ b :: back') (hb : b ∉ front) (hne : a ≠ b) :
    a ∈ front' := by
  rcases List.append_eq_append_iff.1 h with ⟨more, rfl, hrest⟩ | ⟨more, rfl, hrest⟩
  · cases more with
    | nil => exact absurd (List.cons.inj hrest).1 hne
    | cons c more =>
      obtain ⟨rfl, -⟩ := List.cons.inj hrest
      simp
  · cases more with
    | nil => exact absurd (List.cons.inj hrest).1.symm hne
    | cons c more =>
      obtain ⟨rfl, -⟩ := List.cons.inj hrest
      simp at hb

section

variable {n child new anchor : NodeId} {ids : List NodeId}

/-- One more new node does not matter to what old nodes stand in front of another one. It may stand
anywhere among the children. -/
theorem filter_takeWhile_place {place : List NodeId → List NodeId} (hplace : Places child place)
    (hchild : n ≤ child) (hne : child ≠ new) (ids : List NodeId) :
    ((place ids).takeWhile (· != new)).filter (· < n) =
      (ids.takeWhile (· != new)).filter (· < n) := by
  obtain ⟨front, back, rfl, hplaced⟩ := hplace ids
  have hnot : ¬ child < n := Nat.not_lt.2 hchild
  rw [hplaced, List.takeWhile_append, List.takeWhile_append]
  split
  · simp [hne, hnot]
  · rfl

/-- A node that is put behind another one stands right behind it. -/
theorem exists_split_placeAfter (h : anchor ∈ ids) (new : NodeId) : ∃ front back,
    ids = front ++ anchor :: back ∧ placeAfter anchor new ids = front ++ anchor :: new :: back := by
  induction ids with
  | nil => cases h
  | cons id ids ih =>
    rw [placeAfter]
    split
    · next heq => exact ⟨[], ids, by rw [heq]; rfl, by rw [heq]; rfl⟩
    · next hne =>
      obtain ⟨front, back, hids, hplaced⟩ := ih ((List.mem_cons.1 h).resolve_left (Ne.symm hne))
      exact ⟨id :: front, back, by rw [hids]; rfl, by rw [hplaced]; rfl⟩

/-- So the other one is the last old node in front of it. -/
theorem getLast?_takeWhile_placeAfter (h : anchor ∈ ids) (hnew : new ∉ ids) (hanchor : anchor < n) :
    (((placeAfter anchor new ids).takeWhile (· != new)).filter (· < n)).getLast? =
      some anchor := by
  obtain ⟨front, back, rfl, hplaced⟩ := exists_split_placeAfter h new
  have hfront : (front ++ [anchor]).takeWhile (· != new) = front ++ [anchor] := by
    refine List.takeWhile_eq_self_iff.2 fun id hid => bne_iff_ne.2 ?_
    rintro rfl
    exact hnew (by simp at hid ⊢; tauto)
  have hsplit : front ++ anchor :: new :: back = (front ++ [anchor]) ++ new :: back := by simp
  rw [hplaced, hsplit, List.takeWhile_append, hfront, if_pos rfl]
  simp [hanchor]

end

section

variable {vendors : VendorSet} {s t u v : Sheet} {id group parent anchor at' new : NodeId}
  {d copy : Declaration} {name : String}

/-- The first declaration to want a name does want it, and none in front of it does. Leaves and
groups in front of it are passed over. -/
theorem firstToWant?_eq_some (h : firstToWant? vendors s group name = some anchor) :
    (∃ d, s.declaration? anchor = some d ∧ name ∈ formNames vendors d) ∧
      ∃ before after, s.children group = before ++ anchor :: after ∧
        ∀ id ∈ before, ∀ e, s.declaration? id = some e → name ∉ formNames vendors e := by
  obtain ⟨hanchor, before, after, hsplit, hbefore⟩ := List.find?_eq_some_iff_append.1 h
  constructor
  · obtain ⟨d, hd, hname⟩ := (Option.any_eq_true _ _).1 hanchor
    exact ⟨d, hd, by simpa using hname⟩
  · refine ⟨before, after, hsplit, fun id hid e he hname => ?_⟩
    have hnone := hbefore id hid
    simp [he, hname] at hnone

/-- A step that adds nothing of a copy's name leaves it the only one. Where the step adds to another
group there is nothing to show. -/
theorem IsOnlyCopy.of_grafted (h : IsOnlyCopy s u group anchor copy new) (hu : u.IsForest)
    (hextends : Extends s u) (hgroup : group < s.size) (hgraft : Grafted u v id parent)
    (hother : group = parent → ∀ e, v.declaration? u.size = some e → e.isNamed copy.name = false) :
    IsOnlyCopy s v group anchor copy new := by
  have hgroup' := Nat.lt_of_lt_of_le hgroup hextends.2.size_le
  have hnew := hu.lt_size_of_mem_children h.new_mem
  refine ⟨(hgraft.mem_children_iff hgroup').2 (.inl h.new_mem), h.le_new, ?_, ?_, ?_⟩
  · rw [hgraft.growth.2.declaration? hnew, h.declaration]
  · rw [← h.behind, lastOldBefore?, lastOldBefore?, hgraft.children_eq group hgroup']
    split
    · rw [filter_takeWhile_place (places_placeAfter id u.size) hextends.2.size_le
        (Nat.ne_of_gt hnew)]
    · rfl
  · intro other hmem e he hnamed
    rcases (hgraft.mem_children_iff hgroup').1 hmem with hmem | ⟨hparent, rfl⟩
    · rw [hgraft.growth.2.declaration? (hu.lt_size_of_mem_children hmem)] at he
      exact h.only other hmem e he hnamed
    · rw [hother hparent e he] at hnamed
      cases hnamed

/-- Where a declaration wants a vendor's name and does not find it beside it, nothing in the group
has that name. -/
theorem isNamed_eq_false_of_unmet {value : String} (hunmet : ¬ (Demand.named name value).Met s id)
    (hparent : s.parent? id = some group) (hd : s.declaration? id = some d)
    (hname : name ∈ formNames vendors d) :
    ∀ other ∈ s.children group, ∀ e, s.declaration? other = some e → e.isNamed name = false := by
  refine fun other hother e he => Bool.eq_false_iff.2 fun hnamed => ?_
  by_cases hne : other = id
  · subst hne
    obtain rfl := Option.some.inj (hd.symm.trans he)
    rw [formNames_of_isNamed hname hnamed] at hname
    cases hname
  · refine hunmet ⟨other, ?_, e, he, hnamed⟩
    rw [siblings, List.mem_filter, family, hparent]
    exact ⟨hother, bne_iff_ne.2 hne⟩

/-- A declaration outside of keyframes that is the first one of its group which the vendors know
under a name. Nothing in the group has that name, and its value gives no work of its own. -/
structure IsOriginal (vendors : VendorSet) (s : Sheet) (group anchor : NodeId) (d : Declaration)
    (name : String) : Prop where
  first : firstToWant? vendors s group name = some anchor
  declaration : s.declaration? anchor = some d
  value : ¬ UsesGradient d.value
  outside : s.keyframesAround anchor = none
  unborne : ∀ e ∈ s.declarationsIn group, e.isNamed name = false

theorem IsOriginal.name_mem (h : IsOriginal vendors s group anchor d name) :
    name ∈ formNames vendors d := by
  obtain ⟨⟨d', hd', hname⟩, -⟩ := firstToWant?_eq_some h.first
  rw [h.declaration] at hd'
  rwa [Option.some.inj hd']

theorem IsOriginal.mem_children (h : IsOriginal vendors s group anchor d name) :
    anchor ∈ s.children group :=
  List.mem_of_find?_eq_some h.first

theorem IsOriginal.lt_size (h : IsOriginal vendors s group anchor d name) : anchor < s.size :=
  lt_size_of_node? (declaration?_eq_some_iff.1 h.declaration)

/-- A visit to a node does not come too early: it goes to the first declaration that wants the copy,
or to one that does not want it, or the first one has had its visit. -/
def Ready (vendors : VendorSet) (s u : Sheet) (group anchor : NodeId) (name : String)
    (id : NodeId) : Prop :=
  id = anchor ∨ Settled vendors u anchor ∨ id < s.size ∧ (s.parent? id = some group →
    ∀ e, s.declaration? id = some e → name ∉ formNames vendors e)

/-- Where a copy is the only declaration of its name, a step adds another one nowhere but behind the
first declaration that wants it, and there only the first. -/
theorem Step.exists_grafted_copy (h : Step vendors id u v) (hs : s.IsForest) (hu : u.IsForest)
    (hextends : Extends s u) (horiginal : IsOriginal vendors s group anchor d name)
    (hready : Ready vendors s u group anchor name id)
    (hcopies : OnlyCopies s u group anchor ⟨name, d.value⟩) :
    ∃ at' parent, Grafted u v at' parent ∧ (group = parent → ∀ e, v.declaration? u.size = some e →
      e.isNamed name = true → at' = anchor ∧ e = ⟨name, d.value⟩ ∧
        ∀ other ∈ u.children group, ∀ e, u.declaration? other = some e →
          e.isNamed name = false) := by
  cases h with
  | copied _ _ _ _ _ hgraft hnew =>
    refine ⟨_, _, hgraft, fun _ e he _ => ?_⟩
    rw [selector?, group?, declaration?_eq_some_iff.1 he] at hnew
    cases hnew
  | @declared parent d' demand _ hd' hdemand hunmet hgraft hnew =>
    refine ⟨_, _, hgraft, ?_⟩
    rintro rfl e he hnamed
    rw [hnew] at he
    obtain rfl := Option.some.inj he
    have hname := horiginal.name_mem
    have hlt := horiginal.lt_size
    have hparent := hgraft.parent_eq
    have hd := (hextends.2.declaration? hlt).trans horiginal.declaration
    rcases demand_of_isNamed hdemand hname hnamed with ⟨hmem, rfl⟩ | ⟨hnamed', hgradient⟩
    · have hnone := isNamed_eq_false_of_unmet hunmet hparent hd' hmem
      rcases hready with rfl | hsettled | ⟨hlt', hunwanted⟩
      · obtain rfl := Option.some.inj (hd'.symm.trans hd)
        exact ⟨rfl, rfl, hnone⟩
      · rw [Settled, hextends.2.keyframesAround hs hu hlt, horiginal.outside] at hsettled
        obtain ⟨other, hother, e, he, hclash⟩ := hsettled d hd _ (named_mem_demands hname)
        rw [siblings, List.mem_filter, family, hextends.2.parent anchor hlt,
          hs.parent?_of_mem_children horiginal.mem_children] at hother
        exact absurd hclash (Bool.eq_false_iff.1 (hnone other hother.1 e he))
      · refine absurd hmem (hunwanted ?_ d' ?_)
        · rw [← hextends.2.parent id hlt', hparent]
        · rw [← hextends.2.declaration? hlt', hd']
    · -- A gradient under the name would be in the copy, and so in the value that was copied.
      have hcopy := hcopies id (hu.mem_children_of_parent? hparent) d' hd' hnamed'
      obtain rfl := Option.some.inj (hd'.symm.trans hcopy.declaration)
      exact absurd hgradient horiginal.value

/-- What a step keeps: the group declares the name of a copy once at most. The visit must not come
before that of the original, unless it wants another name. -/
theorem Step.onlyCopies (h : Step vendors id u v) (hs : s.IsForest) (hu : u.IsForest)
    (hextends : Extends s u) (horiginal : IsOriginal vendors s group anchor d name)
    (hready : Ready vendors s u group anchor name id)
    (hcopies : OnlyCopies s u group anchor ⟨name, d.value⟩) :
    OnlyCopies s v group anchor ⟨name, d.value⟩ := by
  obtain ⟨at', parent, hgraft, hadded⟩ :=
    h.exists_grafted_copy hs hu hextends horiginal hready hcopies
  have hanchor := hs.parent?_of_mem_children horiginal.mem_children
  have hgroup := hs.parent_lt_size hanchor
  have hgroup' := Nat.lt_of_lt_of_le hgroup hextends.2.size_le
  intro new hnew e he hnamed
  rcases (hgraft.mem_children_iff hgroup').1 hnew with hnew | ⟨rfl, rfl⟩
  · rw [hgraft.growth.2.declaration? (hu.lt_size_of_mem_children hnew)] at he
    refine (hcopies new hnew e he hnamed).of_grafted hu hextends hgroup hgraft ?_
    refine fun hparent e' he' => Bool.eq_false_iff.2 fun hnamed' => ?_
    have hnone := (hadded hparent e' he' hnamed').2.2 new hnew e he
    exact absurd hnamed (Bool.eq_false_iff.1 hnone)
  · obtain ⟨rfl, rfl, hnone⟩ := hadded rfl e he hnamed
    have hmem : at' ∈ u.children group :=
      (hextends.2.mem_children_iff hgroup horiginal.lt_size).2 horiginal.mem_children
    have hfresh : u.size ∉ u.children group :=
      fun hmem => Nat.lt_irrefl _ (hu.lt_size_of_mem_children hmem)
    refine ⟨hnew, hextends.2.size_le, he, ?_, ?_⟩
    · rw [lastOldBefore?, hgraft.children_eq group hgroup', if_pos rfl]
      exact getLast?_takeWhile_placeAfter hmem hfresh horiginal.lt_size
    · intro other hother e' he' hnamed'
      rcases (hgraft.mem_children_iff hgroup').1 hother with hother | ⟨-, rfl⟩
      · rw [hgraft.growth.2.declaration? (hu.lt_size_of_mem_children hother)] at he'
        exact absurd hnamed' (Bool.eq_false_iff.1 (hnone other hother e' he'))
      · rfl

/-- A visit that comes in time still does after others. -/
theorem Ready.of_extends (h : Ready vendors s u group anchor name id) (hu : u.IsForest)
    (hextends : Extends u v) (hanchor : anchor < u.size) : Ready vendors s v group anchor name id :=
  h.imp_right fun h => h.imp_left fun h => h.of_extends hu hextends hanchor

/-- A visit that comes in time leaves the copy the only one. The declaration that is visited may be
the original itself. -/
theorem onlyCopies_of_runs_expandAt (hs : s.IsForest)
    (horiginal : IsOriginal vendors s group anchor d name) (hextends : Extends s u)
    (hready : Ready vendors s u group anchor name id)
    (hcopies : OnlyCopies s u group anchor ⟨name, d.value⟩)
    (h : Runs (expandAt vendors id) u () v) : OnlyCopies s v group anchor ⟨name, d.value⟩ := by
  have hkept := runs_expandAt_induction (motive := fun w => Extends s w ∧
    Ready vendors s w group anchor name id ∧ OnlyCopies s w group anchor ⟨name, d.value⟩)
    (fun w x hw hkept hstep => ?_) hextends.1 ⟨hextends, hready, hcopies⟩ h
  · exact hkept.2.2.2
  · obtain ⟨hextends', hready', hcopies'⟩ := hkept
    refine ⟨hextends'.trans hstep.growth, ?_, ?_⟩
    · exact hready'.of_extends hw hstep.growth
        (Nat.lt_of_lt_of_le horiginal.lt_size hextends'.2.size_le)
    · exact hstep.onlyCopies hs hw hextends' horiginal hready' hcopies'

/-- The first round visits the declarations in their order, so none that wants a copy is visited
before the first of its group. -/
theorem IsOriginal.ready_of_split (h : IsOriginal vendors s group anchor d name) (hs : s.IsForest)
    (hgroup : group = root ∨ s.Below group root) {done rest : List NodeId}
    (hsplit : s.declarations root = done ++ id :: rest)
    (hsettled : ∀ i ∈ done, Settled vendors u i) : Ready vendors s u group anchor name id := by
  by_cases hdone : anchor ∈ done
  · exact .inr (.inl (hsettled anchor hdone))
  by_cases hne : id = anchor
  · exact .inl hne
  have hid : id ∈ s.declarations root := by rw [hsplit]; simp
  refine .inr (.inr ⟨(lt_size_of_mem_declarations hs hid).1, fun hparent e he => ?_⟩)
  obtain ⟨-, before, after, hchildren, hbefore⟩ := firstToWant?_eq_some h.first
  have hfilter := hs.filter_declarations hgroup
  rw [map_fst_rule, hsplit, hchildren, List.filter_append, List.filter_append,
    List.filter_cons_of_pos (by simpa using hparent),
    List.filter_cons_of_pos (by rw [h.declaration]; rfl)] at hfilter
  have hmem := mem_front_of_append_eq hfilter (fun hmem => hdone (List.mem_filter.1 hmem).1) hne
  exact hbefore id (List.mem_filter.1 hmem).1 e he

/-- Adding vendor forms is a first round over all declarations, and then rounds over new ones. How
many rounds there are is not said, and later ones may have nothing to do. -/
theorem exists_runs_rounds (h : Runs (expand vendors group) s () t) : ∃ u rounds,
    Runs ((s.declarations group).forM (expandAt vendors)) s () u ∧
      Runs (visitRounds (expandAt vendors) group rounds s.size) u () t := by
  have hall : (s.declarations group).filter (0 ≤ ·) = s.declarations group := by simp
  rw [expand, roundLimit, visitRounds, runs_get_bind_iff] at h
  dsimp only at h
  rw [hall] at h
  split at h
  · next hnone =>
    obtain ⟨-, rfl⟩ := runs_pure_iff.1 h
    rw [List.isEmpty_iff.1 hnone]
    exact ⟨s, 0, runs_forM_nil_iff.2 rfl, runs_pure_iff.2 ⟨rfl, rfl⟩⟩
  · obtain ⟨⟨⟩, u, hround, hrest⟩ := runs_bind_iff.1 h
    exact ⟨u, _, hround, hrest⟩

/-- After the first round all old declarations are settled, and the copy is the only one of its
name. The rest of the pass finds nothing left to add for them. -/
theorem IsOriginal.of_runs_round (h : IsOriginal vendors s group anchor d name) (hs : s.IsForest)
    (hgroup : group = root ∨ s.Below group root)
    (hrun : Runs ((s.declarations root).forM (expandAt vendors)) s () t) :
    Extends s t ∧ (∀ i ∈ s.declarations root, Settled vendors t i) ∧
      OnlyCopies s t group anchor ⟨name, d.value⟩ := by
  refine runs_forM_induction (motive := fun done u => Extends s u ∧
    (∀ i ∈ done, Settled vendors u i) ∧ OnlyCopies s u group anchor ⟨name, d.value⟩)
    (fun done id rest u v hsplit hkept hvisit => ?_) ⟨⟨hs, .refl _ _⟩, by simp, ?_⟩ hrun
  · obtain ⟨hextends, hsettled, hcopies⟩ := hkept
    have hmem {i : NodeId} (hi : i ∈ done ++ [id]) : i < u.size := by
      have hi' : i ∈ s.declarations root := by
        rw [hsplit]
        simp at hi ⊢
        tauto
      exact Nat.lt_of_lt_of_le (lt_size_of_mem_declarations hs hi').1 hextends.2.size_le
    obtain ⟨hadds, hnow⟩ := runs_expandAt hextends.1 (hmem (by simp)) hvisit
    refine ⟨hextends.trans hadds.growth, fun i hi => ?_, ?_⟩
    · have hlt := hmem hi
      rcases List.mem_append.1 hi with hi | hi
      · exact (hsettled i hi).of_extends hextends.1 hadds.growth hlt
      · rwa [List.mem_singleton.1 hi]
    · exact onlyCopies_of_runs_expandAt hs h hextends (h.ready_of_split hs hgroup hsplit hsettled)
        hcopies hvisit
  · intro new hnew e he hnamed
    have hnone := h.unborne e (List.mem_filterMap.2 ⟨new, hnew, he⟩)
    exact absurd hnamed (Bool.eq_false_iff.1 hnone)

/-- The first declaration that wants a copy gets it, and nothing else of the name comes into the
group. Later rounds visit new nodes only. -/
theorem IsOriginal.exists_onlyCopy (h : IsOriginal vendors s group anchor d name) (hs : s.IsForest)
    (hgroup : group = root ∨ s.Below group root) (hrun : Runs (expand vendors root) s () t) :
    Extends s t ∧ ∃ new, IsOnlyCopy s t group anchor ⟨name, d.value⟩ new := by
  obtain ⟨u, rounds, hround, hrest⟩ := exists_runs_rounds hrun
  obtain ⟨hextends, hsettled, hcopies⟩ := h.of_runs_round hs hgroup hround
  have hparent := hs.parent?_of_mem_children h.mem_children
  have hanchor : anchor ∈ s.declarations root := by
    refine (mem_declarations_iff hs).2 ⟨?_, by rw [h.declaration]; rfl⟩
    rcases hgroup with rfl | hbelow
    · exact .single hparent
    · exact .head hparent hbelow
  obtain ⟨hextends', hsettled', hcopies'⟩ := runs_visitRounds_induction
    (motive := fun w => Extends s w ∧ Settled vendors w anchor ∧
      OnlyCopies s w group anchor ⟨name, d.value⟩)
    (fun id w x _ hw hkept hstep => ⟨hkept.1.trans hstep.growth,
      hkept.2.1.of_extends hw hstep.growth (Nat.lt_of_lt_of_le h.lt_size hkept.1.2.size_le),
      hstep.onlyCopies hs hw hkept.1 h (.inr (.inl hkept.2.1)) hkept.2.2⟩)
    hextends.1 hextends.2.size_le ⟨hextends, hsettled anchor hanchor, hcopies⟩ hrest
  rw [Settled, hextends'.2.keyframesAround hs hextends'.1 h.lt_size, h.outside] at hsettled'
  obtain ⟨new, hnew, e, he, hclash⟩ := hsettled' d
    ((hextends'.2.declaration? h.lt_size).trans h.declaration) _ (named_mem_demands h.name_mem)
  rw [siblings, List.mem_filter, family, hextends'.2.parent anchor h.lt_size, hparent] at hnew
  exact ⟨hextends', new, hcopies' new hnew.1 e he hclash⟩

end

end Sheetsmith.Vendor
