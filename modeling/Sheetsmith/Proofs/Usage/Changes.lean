import Sheetsmith.Proofs.Sheet.Attached
import Sheetsmith.Proofs.Usage.Rejoin

namespace Sheetsmith.Sheet

open Usage

/-- A group is looked at only if it has a header that is no at-rule. -/
theorem exists_selector_of_isCleanable {s : Sheet} {id : NodeId} (h : s.isCleanable id = true) :
    ∃ selector, s.selector? id = some selector ∧ isAtRule selector = false := by
  rw [isCleanable_eq, Bool.and_eq_true, beq_iff_eq, Option.map_eq_some_iff] at h
  exact h.1

/-- What a look at one group may change. -/
structure Changes (s t : Sheet) (id : NodeId) : Prop where
  thins : s.Thins t
  parent?_eq : ∀ i ≠ id, t.parent? i = s.parent? i
  selector?_eq : ∀ i ≠ id, t.selector? i = s.selector? i
  alike : Alike (t.selector? id) (s.selector? id)
  isPlain : IsPlain (t.selector? id)

section

variable {s : Sheet} {id : NodeId}

theorem changes_self (hplain : IsPlain (s.selector? id)) : s.Changes s id :=
  ⟨.refl s, fun _ _ => rfl, fun _ _ => rfl, .refl _, hplain⟩

/-- A look that takes the group out. The root is never looked at. -/
theorem changes_remove (hid : id ≠ root) (hplain : IsPlain (s.selector? id)) :
    s.Changes (s.remove id) id := by
  refine ⟨s.thins_remove hid, fun i hi => ?_, fun i _ => selector?_remove s id i, ?_, ?_⟩
  · rw [parent?_remove, if_neg hi]
  · rw [selector?_remove]
    exact .refl _
  · rwa [selector?_remove]

/-- The parts of a group's selector are trimmed and hold no comma. -/
theorem trimmed_of_mem_selectors {part : String} (h : part ∈ s.selectors id) :
    ',' ∉ part.toList ∧ Text.trim part.toList = part.toList := by
  rw [selectors] at h
  split at h
  · exact trimmed_of_mem_selectorParts h
  · cases h

/-- A group that has a header gets its parts put together as the new one. Without a header it would
get none, so that is assumed. -/
theorem selector?_setSelectors {selector : String} (h : s.selector? id = some selector)
    (parts : List String) :
    (s.setSelectors id parts).selector? id = some (", ".intercalate parts) := by
  obtain ⟨g, hg, -⟩ := Option.bind_eq_some_iff.1 h
  rw [selector?, setSelectors, group?_setSelector, if_pos rfl, hg]
  rfl

/-- Parts of a selector that were put together are its parts from then on. Only a single empty part
is lost, as its header is empty. -/
theorem selectors_setSelectors {selector : String} (hselector : s.selector? id = some selector)
    {kept : List String} (hkept : kept.Sublist (s.selectors id)) (hne : kept ≠ []) :
    (s.setSelectors id kept).selectors id = if kept = [""] then [] else kept := by
  rw [selectors, selector?_setSelectors hselector]
  exact selectorParts_intercalate (fun part hpart => trimmed_of_mem_selectors (hkept.subset hpart)) hne

/-- Some of the parts of a selector make no other kind of header than all of them. This is where no
part may start with `@`: put first, it would make an at-rule. -/
theorem changes_setSelectors {selector : String} (hselector : s.selector? id = some selector)
    (hat : isAtRule selector = false) (hplain : IsPlain (s.selector? id)) {kept : List String}
    (hkept : kept.Sublist (s.selectors id)) (hne : kept ≠ []) :
    s.Changes (s.setSelectors id kept) id := by
  have hnew := selector?_setSelectors hselector kept
  have hheads : ∀ part ∈ kept, part.toList.head? ≠ some '@' := by
    intro part hpart
    have hmem := hkept.subset hpart
    rw [selectors, hselector] at hmem
    exact hplain selector hselector hat part hmem
  have hjoined := isAtRule_intercalate
    (fun part hpart => trimmed_of_mem_selectors (hkept.subset hpart)) hheads
  refine ⟨.of_parent?_eq (size_setSelector s id _) fun i => parent?_setSelector s id i _,
    fun i _ => parent?_setSelector s id i _, fun i hi => selector?_setSelector_of_ne hi _, ?_, ?_⟩
  · rw [hnew, hselector]
    refine ⟨?_, ?_⟩
    · rw [Option.map_some, Option.map_some, hjoined, hat]
    · rw [opensKeyframes_eq_false hjoined, opensKeyframes_eq_false hat]
  · have hparts := selectors_setSelectors hselector hkept hne
    rw [selectors, hnew] at hparts
    dsimp only at hparts
    rw [hnew]
    rintro joined ⟨⟩ - part hpart
    rw [hparts] at hpart
    split at hpart
    · cases hpart
    · exact hheads part hpart

end

/-- The parts that a look at a group keeps. -/
def keptAt (tokens : List String) (s : Sheet) (id : NodeId) : List String :=
  if s.isAttached id && s.isCleanable id then (s.selectors id).filter (keeps tokens) else []

/-- What is kept of a selector are parts of it, in their order. -/
theorem keptAt_sublist_selectors (tokens : List String) (s : Sheet) (id : NodeId) :
    (s.keptAt tokens id).Sublist (s.selectors id) := by
  rw [keptAt]
  split
  · exact List.filter_sublist
  · exact List.nil_sublist _

section

variable {table : Table} {tokens : List String} (htable : table.Tallies tokens) {s : Sheet}
  {id : NodeId}
include htable

/-- A look at a group adds the uses of what it keeps, and of nothing else. If the group is not
looked at, it keeps no part and nothing is added. -/
theorem counts_cleanStep (findings : Findings) :
    (cleanStep table (s, findings) id).2.counts =
      findings.counts.addParts tokens (s.keptAt tokens id) := by
  rw [cleanStep, keptAt]
  split
  · rw [foldl_note htable]
    rfl
  · rfl

/-- Where a group is looked at, it goes or has the kept parts from then on. The findings so far have
no influence on the sheet. -/
theorem fst_cleanStep (hattached : s.isAttached id = true) (hcleanable : s.isCleanable id = true)
    (findings : Findings) :
    (cleanStep table (s, findings) id).1 =
      if s.keptAt tokens id = [] then s.remove id else s.setSelectors id (s.keptAt tokens id) := by
  have hkept : s.keptAt tokens id = (s.selectors id).filter (isUsed table) := by
    rw [keptAt, hattached, hcleanable, Bool.and_true, if_pos rfl, funext htable.isUsed_eq]
  rw [cleanStep_of_isCleanable hattached hcleanable, cleanGroup, hkept]
  simp only [List.isEmpty_iff]

/-- A look at a group gives it no part that it did not have. -/
theorem selectors_cleanStep_subset (findings : Findings) :
    (cleanStep table (s, findings) id).1.selectors id ⊆ s.selectors id := by
  by_cases hlook : (s.isAttached id && s.isCleanable id) = true
  · rw [Bool.and_eq_true] at hlook
    rw [fst_cleanStep htable hlook.1 hlook.2]
    split
    · rw [selectors, selector?_remove]
      exact List.Subset.refl _
    · next hne =>
      obtain ⟨selector, hselector, -⟩ := exists_selector_of_isCleanable hlook.2
      rw [selectors_setSelectors hselector (keptAt_sublist_selectors tokens s id) hne]
      split
      · exact List.nil_subset _
      · exact (keptAt_sublist_selectors tokens s id).subset
  · rw [cleanStep, if_neg hlook]
    exact List.Subset.refl _

/-- A look at a group changes that group only, and leaves it the kind of header it had. The group is
not the root, and none of its parts could pass for an at-rule. -/
theorem changes_cleanStep (hid : id ≠ root) (hplain : IsPlain (s.selector? id))
    (findings : Findings) : s.Changes (cleanStep table (s, findings) id).1 id := by
  by_cases hlook : (s.isAttached id && s.isCleanable id) = true
  · rw [Bool.and_eq_true] at hlook
    rw [fst_cleanStep htable hlook.1 hlook.2]
    split
    · exact changes_remove hid hplain
    · next hne =>
      obtain ⟨selector, hselector, hat⟩ := exists_selector_of_isCleanable hlook.2
      exact changes_setSelectors hselector hat hplain (keptAt_sublist_selectors tokens s id) hne
  · rw [cleanStep, if_neg hlook]
    exact changes_self hplain

end

end Sheetsmith.Sheet
