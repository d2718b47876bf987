import Sheetsmith.Proofs.Usage.Cleaning
import Sheetsmith.Proofs.Usage.Literals
import Sheetsmith.Proofs.Usage.Project

namespace Sheetsmith

namespace Usage

/-- A name that joined literals or a tag cut short bring up is known all the same: it stands in one
of the files as a name, or it belongs to a pseudo-class. -/
def IsWhole (contents : List String) (name : String) : Prop :=
  (∃ content ∈ contents, name ∈ joinedNames content.toList ∨ name ∈ cutTags content.toList) →
    name ∈ Table.pseudoClasses ∨ ∃ content ∈ contents, name ∈ names content.toList

instance (contents : List String) (name : String) : Decidable (IsWhole contents name) :=
  inferInstanceAs (Decidable (
    (∃ content ∈ contents, name ∈ joinedNames content.toList ∨ name ∈ cutTags content.toList) →
      name ∈ Table.pseudoClasses ∨ ∃ content ∈ contents, name ∈ names content.toList))

/-- A name that is known from literals and tags is known from all names, unless it is not whole. A
name that is not whole stands at a place where two literals were joined or a tag was cut. -/
theorem isKnown_safe_of_isKnown_bestEffort {contents : List String} {name : String}
    (hwhole : IsWhole contents name) (hname : ∀ c ∈ name.toList, Text.isNameChar c = true)
    (h : isKnown (contents.flatMap ScanStrategy.bestEffort.tokens) name = true) :
    isKnown (contents.flatMap ScanStrategy.safe.tokens) name = true := by
  rw [isKnown, Bool.or_eq_true, List.contains_iff_mem, List.contains_iff_mem, List.mem_flatMap]
    at h ⊢
  rcases h with h | ⟨content, hcontent, h⟩
  · exact .inl h
  · rcases mem_names_of_mem_literalNames h hname with h | h
    · exact .inr ⟨content, hcontent, h⟩
    · exact hwhole ⟨content, hcontent, h⟩

/-- A part that stays by literals and tags stays by all names, if its own names are whole. Nothing
is assumed about the rest of the part. -/
theorem keeps_safe_of_keeps_bestEffort {contents : List String} {part : String}
    (hwhole : ∀ name ∈ names (plainPart part), IsWhole contents name)
    (h : keeps (contents.flatMap ScanStrategy.bestEffort.tokens) part = true) :
    keeps (contents.flatMap ScanStrategy.safe.tokens) part = true := by
  rw [keeps, List.all_eq_true] at h ⊢
  intro name hname
  exact isKnown_safe_of_isKnown_bestEffort (hwhole name hname) (isNameChar_of_mem_names hname)
    (h name hname)

end Usage

namespace Sheet

open Usage

/-- The names in the ordinary selectors below the root are whole in some files. -/
def NamesWhole (s : Sheet) (contents : List String) : Prop :=
  ∀ id ∈ s.groups root, (s.selector? id).map isAtRule = some false →
    ∀ part ∈ s.selectors id, ∀ name ∈ names (plainPart part), IsWhole contents name

instance (s : Sheet) (contents : List String) : Decidable (s.NamesWhole contents) :=
  inferInstanceAs (Decidable (∀ id ∈ s.groups root, (s.selector? id).map isAtRule = some false →
    ∀ part ∈ s.selectors id, ∀ name ∈ names (plainPart part), IsWhole contents name))

/-- In forests, what is listed below the roots is compared by what is in the trees. The two need not
come from the same text. -/
theorem IsForest.descendants_root_subset {t₁ t₂ : Sheet} (ht₁ : t₁.IsForest) (ht₂ : t₂.IsForest)
    (h : ∀ id, t₁.isAttached id = true → t₂.isAttached id = true) :
    t₁.descendants root ⊆ t₂.descendants root := by
  intro id hid
  refine (ht₂.isAttached_iff.1 (h id (ht₁.isAttached_iff.2 (.inr hid)))).resolve_left ?_
  rintro rfl
  exact ht₁.rootIsTop.not_mem_descendants root hid

/-- What stays by the names in literals and tags stays by all names, as long as no ordinary selector
has a part that could pass for an at-rule or a name that is not whole in the files. A name is not
whole that only joined literals or a tag cut short bring up; names of at-rules and of keyframes are
not asked about. -/
theorem clean_bestEffort_subset_safe {s : Sheet} (hs : s.RootIsTop) (contents : List String)
    (hplain : ∀ id ∈ s.groups root, IsPlain (s.selector? id)) (hwhole : s.NamesWhole contents) :
    let (_, t₁) := s.clean .bestEffort contents
    let (_, t₂) := s.clean .safe contents
    (∀ id, t₁.isAttached id = true →
      t₂.isAttached id = true ∧ (t₁.selectors id).Sublist (t₂.selectors id)) ∧
    (s.IsForest → t₁.descendants root ⊆ t₂.descendants root) := by
  have hkeeps : ∀ id ∈ s.groups root,
      KeepsNoLess (contents.flatMap ScanStrategy.bestEffort.tokens)
        (contents.flatMap ScanStrategy.safe.tokens) s id :=
    fun id hid hat part hpart => keeps_safe_of_keeps_bestEffort (hwhole id hid hat part hpart)
  have hfollows := follows_cleanWith hs (Table.tallies_ofFiles .bestEffort contents)
    (Table.tallies_ofFiles .safe contents) hkeeps hplain
  have hattached (id : NodeId) (hid : (s.clean .bestEffort contents).2.isAttached id = true) :
      (s.clean .safe contents).2.isAttached id = true :=
    hfollows.trails.isAttached hid
  refine ⟨fun id hid => ⟨hattached id hid, hfollows.trails.selectors id hid⟩, fun hforest => ?_⟩
  exact (hforest.clean .bestEffort contents).descendants_root_subset (hforest.clean .safe contents)
    hattached

/-- Groups inside and outside an at-rule. Some of their names are joined in `joiningFiles`. -/
def menuText : String :=
  "@p\x7bnav-item,x:y\x7ba:b\x7d\x7dmy\x7bc:d\x7d"

/-- A name is joined from two literals in one file and stands as a whole in the other. A tag is cut
short, and its name stands elsewhere. -/
def joiningFiles : List String :=
  ["\"nav-\" + \"item\"", "<li class=\x27nav-item\x27><my-tag> my"]

theorem clean_bestEffort_subset_safe_menuText :
    let s := parse true menuText
    let (_, t₁) := s.clean .bestEffort joiningFiles
    let (_, t₂) := s.clean .safe joiningFiles
    (s.RootIsTop ∧ (∀ id ∈ s.groups root, IsPlain (s.selector? id)) ∧ s.NamesWhole joiningFiles) ∧
    (∀ id, t₁.isAttached id = true →
      t₂.isAttached id = true ∧ (t₁.selectors id).Sublist (t₂.selectors id)) ∧
    (s.IsForest → t₁.descendants root ⊆ t₂.descendants root) := by
  have hroot := (isForest_parse true menuText).rootIsTop
  have hplain : ∀ id ∈ (parse true menuText).groups root,
      IsPlain ((parse true menuText).selector? id) := by decide +kernel
  have hwhole : (parse true menuText).NamesWhole joiningFiles := by decide +kernel
  exact ⟨⟨hroot, hplain, hwhole⟩, clean_bestEffort_subset_safe hroot joiningFiles hplain hwhole⟩

/-- Joined literals may name what no file has as a name. The group then stays by the names in
literals and goes by all names. -/
theorem clean_safe_drops_joined :
    let s := parse true ".nav-item\x7ba:b\x7d"
    let contents := ["add(\"nav-\" + \"item\");"]
    (s.IsForest ∧ ∀ id ∈ s.groups root, IsPlain (s.selector? id)) ∧
      (s.clean .bestEffort contents).2.descendants root = [1, 2] ∧
      (s.clean .safe contents).2.descendants root = [] := by
  have hforest := isForest_parse true ".nav-item\x7ba:b\x7d"
  have hrow : (parse true ".nav-item\x7ba:b\x7d").IsTree
      (.group 1 (some ".nav-item") (.item 2 (.declaration ⟨"a", "b"⟩) .nil) .nil) := by
    decide +kernel
  refine ⟨⟨hforest, by decide +kernel⟩, ?_, ?_⟩
  · rw [hforest.descendants_clean hrow]
    decide +kernel
  · rw [hforest.descendants_clean hrow]
    decide +kernel

end Sheet

end Sheetsmith
