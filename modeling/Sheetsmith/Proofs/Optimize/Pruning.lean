import Sheetsmith.Proofs.Pressing
import Sheetsmith.Proofs.Vendor.Filling

namespace Sheetsmith.Sheet

/-- What all passes come to: the sheet is shortened, and then the vendor forms are added, which
cannot fail. The options may be any, and so may the reader, as long as it did not fail on the way.
-/
theorem IsDocument.exists_of_optimize_eq_ok {s t : Sheet} {read : Color.Reader}
    {options : OptimizeOptions} {answer : Except SheetError Unit} (hs : s.IsDocument)
    (h : s.optimize read options = .ok (answer, t)) :
    ∃ u, s.shorten read options = .ok u ∧ u.IsDocument ∧ answer = .ok () ∧
      Edit.Runs (Vendor.expand (.ofText options.vendors) root) u () t := by
  unfold optimize at h
  cases hshorten : s.shorten read options with
  | error e =>
    rw [hshorten] at h
    cases h
  | ok u =>
    rw [hshorten] at h
    have hu : u.IsDocument := hs.shorten hshorten
    obtain ⟨v, hrun, -⟩ := Vendor.exists_runsDry_expandAt (.ofText options.vendors) hu
    have hresult := Except.ok.inj h
    rw [Edit.Runs] at hrun
    rw [hrun] at hresult
    cases hresult
    exact ⟨u, rfl, hu, rfl, hrun⟩

/-- All passes over a document go through, unless the reader of colours stops them, and no group is
without content at their end if such groups were to be taken out. -/
theorem IsDocument.filled_optimize {s t : Sheet} {read : Color.Reader} {options : OptimizeOptions}
    {answer : Except SheetError Unit} (hs : s.IsDocument) (hoptimize : options.optimize = true)
    (hempty : options.removeEmpty = true) (h : s.optimize read options = .ok (answer, t)) :
    answer = .ok () ∧ t.IsForest ∧ t.Filled := by
  obtain ⟨u, hshorten, hu, hanswer, hrun⟩ := hs.exists_of_optimize_eq_ok h
  have hfilled := (hs.tidy_shorten hshorten).content hoptimize hempty
  have hexpand := Vendor.maintains_isFilled_expand (.ofText options.vendors) root u
    ⟨hu.isForest, hfilled⟩
  rw [hrun.final_eq] at hexpand
  exact ⟨hanswer, hexpand⟩

/-- Taking out groups without content is exact: of a forest, it takes those groups out of the tree
that have nothing but groups below them, and nothing else. It lasts: after all passes over a text,
no group of the tree but the root is without content, whatever the later passes join, add and
replace. No pass fails, unless the reader of colours does. Nothing is assumed about the text, the
vendors and the other options. -/
theorem pruneGroups_exact :
    (∀ s : Sheet, s.IsForest → s.Prunes s.pruneGroups) ∧
    ∀ (trim : Bool) (text : String) (read : Color.Reader) (options : OptimizeOptions),
      options.optimize = true → options.removeEmpty = true →
      (∀ answer t, (parse trim text).optimize read options = .ok (answer, t) →
        answer = .ok () ∧ ∀ id ∈ t.groups root, t.children id ≠ []) ∧
      (read.Total → ∃ t, (parse trim text).optimize read options = .ok (.ok (), t)) := by
  refine ⟨fun s hs => hs.prunes_pruneGroups, fun trim text read options hoptimize hempty => ?_⟩
  have hdocument := isDocument_parse trim text
  refine ⟨fun answer t h => ?_, fun hread => ?_⟩
  · obtain ⟨hanswer, hforest, hfilled⟩ := hdocument.filled_optimize hoptimize hempty h
    refine ⟨hanswer, fun id hid => hfilled id (hforest.below_of_mem_groups hid) ?_⟩
    rw [← kind?_eq_group]
    exact (List.mem_filter.1 hid).2
  · obtain ⟨u, hshorten, hu⟩ := hdocument.exists_shorten_eq_ok hread options
    obtain ⟨t, hrun, -⟩ := Vendor.exists_runsDry_expandAt (.ofText options.vendors) hu
    refine ⟨t, ?_⟩
    rw [optimize, hshorten]
    exact congrArg Except.ok hrun

/-- Blocks inside each other without content, one with a comment only, a keyframes block and two
blocks with equal bodies. -/
def hollowText : String :=
  "a\x7bb\x7bc\x7b\x7d\x7dd\x7b/* e */\x7d\x7d@keyframes f\x7bg\x7b\x7dto\x7btransform:none\x7d\x7d" ++
    "h\x7bzoom:1\x7di\x7bzoom:1\x7d"

theorem pruneGroups_exact_hollowText :
    let options := { OptimizeOptions.standard with mergeGroups := true }
    let s := parse true hollowText
    (s.IsForest ∧ s.groups root = [1, 2, 3, 4, 6, 7, 8, 10, 12] ∧ s.barrenGroups = [2, 3, 7]) ∧
      s.Prunes s.pruneGroups ∧
      ∃ t, s.optimize Color.steadyHex options = .ok (.ok (), t) ∧
        ∀ id ∈ t.groups root, t.children id ≠ [] := by
  intro options s
  have hforest := isForest_parse true hollowText
  obtain ⟨hprunes, hlasts⟩ := pruneGroups_exact
  obtain ⟨hfilled, hends⟩ := hlasts true hollowText Color.steadyHex options rfl rfl
  obtain ⟨t, ht⟩ := hends Color.total_steadyHex
  exact ⟨⟨hforest, by decide +kernel, by decide +kernel⟩, hprunes s hforest, t, ht,
    (hfilled _ t ht).2⟩

end Sheetsmith.Sheet
