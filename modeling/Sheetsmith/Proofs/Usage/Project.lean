import Mathlib.Algebra.Order.BigOperators.Group.List
import Mathlib.Algebra.Order.Group.Nat
import Mathlib.Data.List.Flatten
import Mathlib.Data.List.Perm.Subperm
import Sheetsmith.Proofs.Sheet.Top
import Sheetsmith.Proofs.Usage.Changes

namespace Sheetsmith

namespace Usage

variable {tokens₁ tokens₂ : List String}

/-- A part that some names keep is kept by more names. -/
theorem keeps_mono (h : tokens₁ ⊆ tokens₂) {part : String} (hpart : keeps tokens₁ part = true) :
    keeps tokens₂ part = true := by
  rw [keeps, List.all_eq_true] at hpart ⊢
  intro name hname
  have hknown := hpart name hname
  rw [isKnown, Bool.or_eq_true, List.contains_iff_mem, List.contains_iff_mem] at hknown ⊢
  exact hknown.imp_right (@h name)

/-- A part has no fewer uses where no name is used less. -/
theorem weight_mono (h : ∀ name, tokens₁.count name ≤ tokens₂.count name) (part : String) :
    weight tokens₁ part ≤ weight tokens₂ part :=
  List.sum_le_sum fun name _ => h name

/-- With more parts and more uses, nothing has fewer uses in all. Nothing is assumed about the name,
which need not be a token at all. -/
theorem total_mono (h : ∀ name, tokens₁.count name ≤ tokens₂.count name) {kept₁ kept₂ : List String}
    (hkept : kept₁.Sublist kept₂) (name : String) :
    total tokens₁ name kept₁ ≤ total tokens₂ name kept₂ := by
  calc total tokens₁ name kept₁
      ≤ total tokens₂ name kept₁ := List.sum_le_sum fun part _ => weight_mono h part
    _ ≤ total tokens₂ name kept₂ := ((hkept.filter _).map _).sum_le_sum fun _ _ => Nat.zero_le _

/-- More kept parts and more uses make no count smaller. The name has an entry in the second list
whenever it has one in the first. -/
theorem exists_mem_sorted_addParts (h : ∀ name, tokens₁.count name ≤ tokens₂.count name)
    {kept₁ kept₂ : List String} (hkept : kept₁.Sublist kept₂) {name : String} {n : Nat}
    (hmem : (name, n) ∈ (Counts.addParts tokens₁ [] kept₁).sorted) :
    ∃ n', (name, n') ∈ (Counts.addParts tokens₂ [] kept₂).sorted ∧ n ≤ n' := by
  obtain ⟨hname, rfl⟩ := ((Counts.reports_sorted_addParts tokens₁ kept₁).mem_iff name n).1 hmem
  refine ⟨total tokens₂ name kept₂, ?_, total_mono h hkept name⟩
  rw [(Counts.reports_sorted_addParts tokens₂ kept₂).mem_iff]
  exact ⟨(hkept.map _).subset hname, rfl⟩

end Usage

namespace Sheet

open Usage

/-- The parts of an ordinary group that some names keep are kept by others as well. -/
def KeepsNoLess (tokens₁ tokens₂ : List String) (s : Sheet) (id : NodeId) : Prop :=
  (s.selector? id).map isAtRule = some false →
    ∀ part ∈ s.selectors id, keeps tokens₁ part = true → keeps tokens₂ part = true

namespace KeepsNoLess

variable {tokens₁ tokens₂ : List String} {s : Sheet} {id i : NodeId}

theorem of_subset (h : tokens₁ ⊆ tokens₂) (s : Sheet) (id : NodeId) :
    KeepsNoLess tokens₁ tokens₂ s id :=
  fun _ _ _ => keeps_mono h

/-- What fewer names keep of a selector is part of what more names keep, in order. The group must be
one that is cleaned, as others keep all their parts in both. -/
theorem filter_sublist (h : KeepsNoLess tokens₁ tokens₂ s id) (hid : s.isCleanable id = true) :
    ((s.selectors id).filter (keeps tokens₁)).Sublist
      ((s.selectors id).filter (keeps tokens₂)) := by
  obtain ⟨selector, hselector, hat⟩ := exists_selector_of_isCleanable hid
  have hparts := h (by rw [hselector, Option.map_some, hat])
  have hboth : (s.selectors id).filter (keeps tokens₁) =
      ((s.selectors id).filter (keeps tokens₂)).filter (keeps tokens₁) := by
    rw [List.filter_filter]
    refine List.filter_congr fun part hpart => ?_
    cases hkeeps : keeps tokens₁ part with
    | false => rfl
    | true => rw [hparts part hpart hkeeps, Bool.and_true]
  rw [hboth]
  exact List.filter_sublist

/-- A look at one group makes no names keep less of any other one. The group itself has lost parts
at most. -/
theorem cleanStep {table : Table} {tokens : List String} (htable : table.Tallies tokens)
    (hid : id ≠ root) (hplain : IsPlain (s.selector? id)) (findings : Findings)
    (h : KeepsNoLess tokens₁ tokens₂ s i) :
    KeepsNoLess tokens₁ tokens₂ (cleanStep table (s, findings) id).1 i := by
  have hchanges := changes_cleanStep htable hid hplain findings
  intro hat part hpart
  by_cases hi : i = id
  · subst hi
    rw [hchanges.alike.1] at hat
    exact h hat part (selectors_cleanStep_subset htable findings hpart)
  · rw [hchanges.selector?_eq i hi] at hat
    rw [selectors, hchanges.selector?_eq i hi] at hpart
    exact h hat part hpart

end KeepsNoLess

/-- Two cleanings of the same sheet, one that is behind and one that has kept all that the first
has in its tree, and more perhaps. -/
structure Trails (ids : List NodeId) (s t : Sheet) : Prop where
  parent?_root : s.parent? root = none
  thins : t.Thins s
  alike : ∀ id, Alike (s.selector? id) (t.selector? id)
  isPlain : ∀ id ∈ ids, IsPlain (s.selector? id) ∧ IsPlain (t.selector? id)
  selectors : ∀ id, s.isAttached id = true → (s.selectors id).Sublist (t.selectors id)

namespace Trails

variable {ids : List NodeId} {s t : Sheet} (h : Trails ids s t) {id : NodeId}
include h

section

variable (hid : s.isAttached id = true)
include hid

/-- A group of the tree that is behind is in the tree of the other one. -/
theorem isAttached : t.isAttached id = true :=
  h.thins.isAttached h.parent?_root hid

/-- The same groups are looked at in both: a header that has lost parts is of the same kind, and so
are those above it. -/
theorem isCleanable_eq : t.isCleanable id = s.isCleanable id := by
  have hopens : (fun i => opensKeyframes (t.selector? i)) = fun i => opensKeyframes (s.selector? i) :=
    funext fun i => (h.alike i).2.symm
  rw [Sheet.isCleanable_eq, Sheet.isCleanable_eq, h.thins.ancestors_eq h.parent?_root hid,
    (h.alike id).1, hopens]

end

variable {table₁ table₂ : Table} {tokens₁ tokens₂ : List String}

/-- The cleaning that is behind keeps no part of a selector that the other one drops. -/
theorem keptAt_sublist (hkeeps : KeepsNoLess tokens₁ tokens₂ s id) :
    (s.keptAt tokens₁ id).Sublist (t.keptAt tokens₂ id) := by
  by_cases hlook : (s.isAttached id && s.isCleanable id) = true
  · rw [Bool.and_eq_true] at hlook
    rw [keptAt, keptAt, h.isAttached hlook.1, h.isCleanable_eq hlook.1, hlook.1, hlook.2,
      Bool.and_true, if_pos rfl, if_pos rfl]
    exact (hkeeps.filter_sublist hlook.2).trans ((h.selectors id hlook.1).filter _)
  · rw [keptAt, if_neg hlook]
    exact List.nil_sublist _

section

variable (htable₁ : table₁.Tallies tokens₁) (htable₂ : table₂.Tallies tokens₂)
  (hkeeps : KeepsNoLess tokens₁ tokens₂ s id) (hroot : id ≠ root)
  (findings₁ findings₂ : Findings)
include htable₁ htable₂ hkeeps hroot

/-- The group that is looked at stays behind in both, or nowhere. It may go in the cleaning that is
behind and stay in the other one. -/
theorem cleanStep_self (hid : s.isAttached id = true)
    (hafter : (cleanStep table₁ (s, findings₁) id).1.isAttached id = true) :
    (cleanStep table₂ (t, findings₂) id).1.parent? id =
        (cleanStep table₁ (s, findings₁) id).1.parent? id ∧
      ((cleanStep table₁ (s, findings₁) id).1.selectors id).Sublist
        ((cleanStep table₂ (t, findings₂) id).1.selectors id) := by
  have hcleanable := h.isCleanable_eq hid
  have hparent := h.thins.parent?_eq id hid
  cases hcase : s.isCleanable id with
  | false =>
    rw [hcase] at hcleanable
    rw [cleanStep_of_isCleanable_eq_false hcase, cleanStep_of_isCleanable_eq_false hcleanable]
    exact ⟨hparent, h.selectors id hid⟩
  | true =>
    rw [hcase] at hcleanable
    have hkept : (s.keptAt tokens₁ id).Sublist (t.keptAt tokens₂ id) := h.keptAt_sublist hkeeps
    rw [fst_cleanStep htable₁ hid hcase] at hafter ⊢
    rw [fst_cleanStep htable₂ (h.isAttached hid) hcleanable]
    by_cases hnil : s.keptAt tokens₁ id = []
    · rw [if_pos hnil, isAttached_of_parent? (by rw [parent?_remove, if_pos rfl]) hroot] at hafter
      cases hafter
    · have hne : t.keptAt tokens₂ id ≠ [] := by
        intro hempty
        rw [hempty] at hkept
        exact hnil (List.sublist_nil.1 hkept)
      obtain ⟨selector₁, hselector₁, -⟩ := exists_selector_of_isCleanable hcase
      obtain ⟨selector₂, hselector₂, -⟩ := exists_selector_of_isCleanable hcleanable
      rw [if_neg hnil, if_neg hne,
        selectors_setSelectors hselector₁ (keptAt_sublist_selectors tokens₁ s id) hnil,
        selectors_setSelectors hselector₂ (keptAt_sublist_selectors tokens₂ t id) hne]
      refine ⟨?_, ?_⟩
      · rw [setSelectors, setSelectors, parent?_setSelector, parent?_setSelector, hparent]
      · -- A single empty part is lost; then it is the only part in both.
        by_cases hlost : s.keptAt tokens₁ id = [""]
        · rw [if_pos hlost]
          exact List.nil_sublist _
        · have hlost₂ : t.keptAt tokens₂ id ≠ [""] := by
            intro heq
            rw [heq, List.sublist_singleton] at hkept
            exact hkept.elim hnil hlost
          rwa [if_neg hlost, if_neg hlost₂]

/-- A look at the same group in both keeps the one behind the other. -/
theorem cleanStep (hid : id ∈ ids) :
    Trails ids (Sheet.cleanStep table₁ (s, findings₁) id).1
      (Sheet.cleanStep table₂ (t, findings₂) id).1 := by
  have hs := changes_cleanStep htable₁ hroot (h.isPlain id hid).1 findings₁
  have ht := changes_cleanStep htable₂ hroot (h.isPlain id hid).2 findings₂
  have hself := h.cleanStep_self htable₁ htable₂ hkeeps hroot findings₁ findings₂
  generalize (Sheet.cleanStep table₁ (s, findings₁) id).1 = s' at hs hself ⊢
  generalize (Sheet.cleanStep table₂ (t, findings₂) id).1 = t' at ht hself ⊢
  have htop : s'.parent? root = none := by
    rw [hs.parent?_eq root hroot.symm]
    exact h.parent?_root
  have hattached {i : NodeId} (hi : s'.isAttached i = true) : s.isAttached i = true :=
    hs.thins.isAttached htop hi
  refine ⟨htop, ⟨?_, fun i hi => ?_⟩, fun i => ?_, fun i hi => ?_, fun i hi => ?_⟩
  · rw [hs.thins.size_eq, ht.thins.size_eq, h.thins.size_eq]
  · by_cases hne : i = id
    · subst hne
      exact (hself (hattached hi) hi).1
    · rw [ht.parent?_eq i hne, hs.parent?_eq i hne, h.thins.parent?_eq i (hattached hi)]
  · by_cases hne : i = id
    · subst hne
      exact (hs.alike.trans (h.alike i)).trans ht.alike.symm
    · rw [hs.selector?_eq i hne, ht.selector?_eq i hne]
      exact h.alike i
  · by_cases hne : i = id
    · subst hne
      exact ⟨hs.isPlain, ht.isPlain⟩
    · rw [hs.selector?_eq i hne, ht.selector?_eq i hne]
      exact h.isPlain i hi
  · by_cases hne : i = id
    · subst hne
      exact (hself (hattached hi) hi).2
    · rw [Sheet.selectors, Sheet.selectors, hs.selector?_eq i hne, ht.selector?_eq i hne]
      exact h.selectors i (hattached hi)

end

end Trails

/-- Two cleanings side by side, with what was found out in each. -/
structure Follows (ids : List NodeId) (tokens₁ tokens₂ : List String)
    (state₁ state₂ : Sheet × Findings) : Prop where
  trails : Trails ids state₁.1 state₂.1
  counts : ∃ kept₁ kept₂ : List String, kept₁.Sublist kept₂ ∧
    state₁.2.counts = Counts.addParts tokens₁ [] kept₁ ∧
    state₂.2.counts = Counts.addParts tokens₂ [] kept₂

section

variable {table₁ table₂ : Table} {tokens₁ tokens₂ : List String}
  (htable₁ : table₁.Tallies tokens₁) (htable₂ : table₂.Tallies tokens₂)
  {ids : List NodeId} {state₁ state₂ : Sheet × Findings}
  (h : Follows ids tokens₁ tokens₂ state₁ state₂)
include htable₁ htable₂ h

/-- A look at one group in both cleanings keeps the one behind the other, and so the counts of what
was kept. -/
theorem Follows.cleanStep {id : NodeId} (hkeeps : KeepsNoLess tokens₁ tokens₂ state₁.1 id)
    (hid : id ∈ ids) (hroot : id ≠ root) :
    Follows ids tokens₁ tokens₂ (cleanStep table₁ state₁ id) (cleanStep table₂ state₂ id) := by
  obtain ⟨kept₁, kept₂, hkept, hcounts₁, hcounts₂⟩ := h.counts
  refine ⟨h.trails.cleanStep htable₁ htable₂ hkeeps hroot state₁.2 state₂.2 hid,
    kept₁ ++ state₁.1.keptAt tokens₁ id, kept₂ ++ state₂.1.keptAt tokens₂ id,
    hkept.append (h.trails.keptAt_sublist hkeeps), ?_, ?_⟩
  · rw [Counts.addParts_append, ← hcounts₁]
    exact counts_cleanStep htable₁ state₁.2
  · rw [Counts.addParts_append, ← hcounts₂]
    exact counts_cleanStep htable₂ state₂.2

/-- The run that keeps less stays behind the other one to its end. The groups are visited in the
order of the list in both, which is the order of the sheet before cleaning. -/
theorem Follows.foldl (hkeeps : ∀ id ∈ ids, KeepsNoLess tokens₁ tokens₂ state₁.1 id)
    {visits : List NodeId} (hvisits : visits ⊆ ids) (hroot : root ∉ visits) :
    Follows ids tokens₁ tokens₂ (visits.foldl (Sheet.cleanStep table₁) state₁)
      (visits.foldl (Sheet.cleanStep table₂) state₂) := by
  induction visits generalizing state₁ state₂ with
  | nil => exact h
  | cons id visits ih =>
    have hne : id ≠ root := by
      rintro rfl
      exact hroot List.mem_cons_self
    have hid : id ∈ ids := hvisits List.mem_cons_self
    have hplain := (h.trails.isPlain id hid).1
    exact ih (h.cleanStep htable₁ htable₂ (hkeeps id hid) hid hne)
      (fun i hi => (hkeeps i hi).cleanStep htable₁ hne hplain state₁.2)
      (List.subset_of_cons_subset hvisits) fun hmem => hroot (List.mem_cons_of_mem _ hmem)

end

/-- Cleaning looks at nothing of a table but which names it has and how often they are used. -/
theorem cleanStep_congr {table₁ table₂ : Table} (hused : isUsed table₁ = isUsed table₂)
    (huses : uses table₁ = uses table₂) : cleanStep table₁ = cleanStep table₂ := by
  have hnote : Findings.note table₁ = Findings.note table₂ := by
    funext findings part
    rw [Findings.note, Findings.note, hused, huses]
  funext state id
  rw [cleanStep, cleanStep, hnote, cleanGroup, cleanGroup, hused]

/-- The order of the files makes no difference, neither to the sheet nor to the summary. Any sheet
may be cleaned. -/
theorem clean_perm (s : Sheet) (strategy : ScanStrategy) {contents₁ contents₂ : List String}
    (h : contents₁.Perm contents₂) : s.clean strategy contents₁ = s.clean strategy contents₂ := by
  have htable₁ := Table.tallies_ofFiles strategy contents₁
  have htable₂ := (Table.tallies_ofFiles strategy contents₂).of_perm
    (h.symm.flatMap_right strategy.tokens)
  have hused : isUsed (Table.ofFiles strategy contents₁) = isUsed (Table.ofFiles strategy contents₂) := by
    funext part
    rw [htable₁.isUsed_eq, htable₂.isUsed_eq]
  have huses : uses (Table.ofFiles strategy contents₁) = uses (Table.ofFiles strategy contents₂) := by
    funext part
    rw [htable₁.uses_eq, htable₂.uses_eq]
  rw [clean, clean, cleanWith, cleanWith, cleanStep_congr hused huses, htable₁.size_eq,
    htable₂.size_eq, h.length_eq]

theorem IsForest.clean {s : Sheet} (hs : s.IsForest) (strategy : ScanStrategy)
    (contents : List String) : (s.clean strategy contents).2.IsForest :=
  cleanWith_induction hs (fun _ id ht => ht.remove id)
    (fun _ id _ header ht => ht.setSelector id header) _

/-- The names of some files are among those of more files, each as often. This holds of every
strategy, as files are read one by one. -/
theorem subperm_flatMap_tokens {contents₁ contents₂ : List String}
    (h : contents₁.Subperm contents₂) (strategy : ScanStrategy) :
    (contents₁.flatMap strategy.tokens).Subperm (contents₂.flatMap strategy.tokens) := by
  obtain ⟨some, hperm, hsublist⟩ := h
  exact ⟨some.flatMap strategy.tokens, hperm.flatMap_right _, hsublist.flatMap _⟩

/-- Cleaning by a table that keeps less is behind cleaning by one that keeps more, from the first
group to the last. What is assumed of the names is asked for in the sheet before cleaning only. -/
theorem follows_cleanWith {s : Sheet} (hs : s.RootIsTop) {table₁ table₂ : Table}
    {tokens₁ tokens₂ : List String} (htable₁ : table₁.Tallies tokens₁)
    (htable₂ : table₂.Tallies tokens₂)
    (hkeeps : ∀ id ∈ s.groups root, KeepsNoLess tokens₁ tokens₂ s id)
    (hplain : ∀ id ∈ s.groups root, IsPlain (s.selector? id)) :
    Follows (s.groups root) tokens₁ tokens₂ (s.cleanWith table₁) (s.cleanWith table₂) := by
  have hstart : Follows (s.groups root) tokens₁ tokens₂ (s, ⟨[], []⟩) (s, ⟨[], []⟩) := by
    refine ⟨⟨hs.parent?_root, .refl s, fun id => .refl _, fun id hid => ?_, fun id _ => ?_⟩, ?_⟩
    · exact ⟨hplain id hid, hplain id hid⟩
    · exact List.Sublist.refl _
    · exact ⟨[], [], List.Sublist.refl _, rfl, rfl⟩
  exact hstart.foldl htable₁ htable₂ hkeeps (List.Subset.refl _) fun hmem =>
    hs.not_mem_descendants root (List.mem_filter.1 hmem).1

/-- Cleaning with some files is behind cleaning with more files. The files may come in any order,
and the same file may be given twice. -/
theorem follows_clean {s : Sheet} (hs : s.RootIsTop) (strategy : ScanStrategy)
    {contents₁ contents₂ : List String} (h : contents₁.Subperm contents₂)
    (hplain : ∀ id ∈ s.groups root, IsPlain (s.selector? id)) :
    Follows (s.groups root) (contents₁.flatMap strategy.tokens) (contents₂.flatMap strategy.tokens)
      (s.cleanWith (.ofFiles strategy contents₁)) (s.cleanWith (.ofFiles strategy contents₂)) :=
  follows_cleanWith hs (Table.tallies_ofFiles strategy contents₁)
    (Table.tallies_ofFiles strategy contents₂)
    (fun id _ => .of_subset (subperm_flatMap_tokens h strategy).subset s id) hplain

/-- Cleaning depends on what the files hold and not on their order; and what stays with some files
stays with more files, with no fewer uses, as long as no ordinary selector has a part that could
pass for an at-rule. Files that are the same count as often as they are given. For the second half
the root must be at the top, and only what is said of the tree as a whole needs a forest. -/
theorem clean_of_files (s : Sheet) (strategy : ScanStrategy) (contents₁ contents₂ : List String) :
    (contents₁.Perm contents₂ → s.clean strategy contents₁ = s.clean strategy contents₂) ∧
    (s.RootIsTop → contents₁.Subperm contents₂ →
      (∀ id ∈ s.groups root, IsPlain (s.selector? id)) →
      let (summary₁, t₁) := s.clean strategy contents₁
      let (summary₂, t₂) := s.clean strategy contents₂
      (∀ id, t₁.isAttached id = true →
        t₂.isAttached id = true ∧ (t₁.selectors id).Sublist (t₂.selectors id)) ∧
      (s.IsForest → t₁.descendants root ⊆ t₂.descendants root) ∧
      ∀ name n, (name, n) ∈ summary₁.usage → ∃ n', (name, n') ∈ summary₂.usage ∧ n ≤ n') := by
  refine ⟨s.clean_perm strategy, fun hs hfiles hplain => ?_⟩
  have hfollows := follows_clean hs strategy hfiles hplain
  have hattached (id : NodeId) (hid : (s.clean strategy contents₁).2.isAttached id = true) :
      (s.clean strategy contents₂).2.isAttached id = true :=
    hfollows.trails.isAttached hid
  refine ⟨fun id hid => ⟨hattached id hid, hfollows.trails.selectors id hid⟩, ?_, ?_⟩
  · intro hforest id hid
    have hbefore := ((hforest.clean strategy contents₁).isAttached_iff).2 (.inr hid)
    refine (((hforest.clean strategy contents₂).isAttached_iff).1 (hattached id hbefore)).resolve_left ?_
    rintro rfl
    exact (hforest.clean strategy contents₁).rootIsTop.not_mem_descendants root hid
  · intro name n hmem
    obtain ⟨kept₁, kept₂, hkept, hcounts₁, hcounts₂⟩ := hfollows.counts
    have hcount := fun name => (subperm_flatMap_tokens hfiles strategy).count_le name
    change ∃ n', (name, n') ∈ (s.cleanWith (.ofFiles strategy contents₂)).2.counts.sorted ∧ n ≤ n'
    change (name, n) ∈ (s.cleanWith (.ofFiles strategy contents₁)).2.counts.sorted at hmem
    rw [hcounts₁] at hmem
    rw [hcounts₂]
    exact exists_mem_sorted_addParts hcount hkept hmem

/-- A group that goes with fewer files has a used selector below it. -/
def nestedText : String :=
  "a,b\x7bc:d\x7d@media p\x7bf,a:hover\x7bg:h\x7d\x7df\x7ba\x7bi:j\x7d\x7d"

/-- Two new groups are put into each other, so that the sheet is no forest. -/
def tanglingSteps : List Step :=
  [.createGroup (some "x"), .createGroup none, .appendChild 9 10, .appendChild 10 9]

theorem clean_of_files_nestedText :
    let s := (parse true nestedText).after tanglingSteps
    (s.parent? 9 = some 10 ∧ s.parent? 10 = some 9) ∧
    (["f a", "a"].Perm ["a", "f a"] ∧ s.clean .safe ["f a", "a"] = s.clean .safe ["a", "f a"]) ∧
    (s.RootIsTop ∧ ["a"].Subperm ["f a", "a"] ∧ ∀ id ∈ s.groups root, IsPlain (s.selector? id)) ∧
      let (summary₁, t₁) := s.clean .safe ["a"]
      let (summary₂, t₂) := s.clean .safe ["f a", "a"]
      (∀ id, t₁.isAttached id = true →
        t₂.isAttached id = true ∧ (t₁.selectors id).Sublist (t₂.selectors id)) ∧
      (s.IsForest → t₁.descendants root ⊆ t₂.descendants root) ∧
      ∀ name n, (name, n) ∈ summary₁.usage → ∃ n', (name, n') ∈ summary₂.usage ∧ n ≤ n' := by
  have hroot := (isForest_parse true nestedText).rootIsTop.after tanglingSteps
  have hperm : ["f a", "a"].Perm ["a", "f a"] := by decide
  have hmore : ["a"].Subperm ["f a", "a"] := by decide
  have hplain : ∀ id ∈ ((parse true nestedText).after tanglingSteps).groups root,
      IsPlain (((parse true nestedText).after tanglingSteps).selector? id) := by decide +kernel
  refine ⟨by decide +kernel, ⟨hperm, (clean_of_files _ .safe _ _).1 hperm⟩,
    ⟨hroot, hmore, hplain⟩, ?_⟩
  exact (clean_of_files _ .safe _ _).2 hroot hmore hplain

end Sheet

end Sheetsmith
