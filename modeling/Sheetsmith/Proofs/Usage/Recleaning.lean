import Sheetsmith.Proofs.Usage.Cleaning
import Sheetsmith.Proofs.Usage.Project

namespace Sheetsmith

namespace Usage

open Sheet (selectorParts)

/-- A header that was put together reads as its parts: it is not empty and does not pass for an
at-rule. -/
def IsLegible (header : Option String) : Prop :=
  ∀ selector ∈ header, selector ≠ "" ∧ isAtRule selector = false

instance (header : Option String) : Decidable (IsLegible header) :=
  inferInstanceAs (Decidable (∀ selector ∈ header, selector ≠ "" ∧ isAtRule selector = false))

variable {tokens : List String} {sheltered : Bool}

theorem judge_of_isAtRule_eq_false {selector : String} (h : isAtRule selector = false) :
    judge tokens false (some selector) =
      let kept := (selectorParts selector).filter (keeps tokens)
      ⟨if kept.isEmpty then none else some (some (", ".intercalate kept)), kept,
        (selectorParts selector).filter fun part => !keeps tokens part⟩ := by
  rw [judge, h]
  rfl

/-- Parts that are all kept, put together, are kept as they are. The header has to read as its
parts, which an empty one does not. -/
theorem judge_intercalate {kept : List String} (hne : kept ≠ [])
    (hparts : ∀ part ∈ kept, ',' ∉ part.toList ∧ Text.trim part.toList = part.toList)
    (hkeeps : ∀ part ∈ kept, keeps tokens part = true)
    (hlegible : IsLegible (some (", ".intercalate kept))) :
    judge tokens false (some (", ".intercalate kept)) =
      ⟨some (some (", ".intercalate kept)), kept, []⟩ := by
  obtain ⟨hempty, hat⟩ := hlegible _ rfl
  have hlost : kept ≠ [""] := by
    rintro rfl
    exact hempty rfl
  have hfilter : kept.filter (keeps tokens) = kept := List.filter_eq_self.2 hkeeps
  have hremoved : (kept.filter fun part => !keeps tokens part) = [] :=
    List.filter_eq_nil_iff.2 fun part hpart => by simp [hkeeps part hpart]
  rw [judge_of_isAtRule_eq_false hat, selectorParts_intercalate hparts hne, if_neg hlost, hfilter,
    hremoved]
  dsimp only
  rw [if_neg (mt List.isEmpty_iff.1 hne)]

/-- What was left of a header is left again, and nothing is removed, if it can still be read.
Without the premise a part that is left alone could be empty, or could read as an at-rule. -/
theorem judge_judge {header left : Option String}
    (h : (judge tokens sheltered header).header = some left)
    (hleft : left = header ∨ IsLegible left) :
    judge tokens sheltered left = ⟨some left, (judge tokens sheltered header).kept, []⟩ := by
  cases header with
  | none =>
    cases h
    rfl
  | some selector =>
    by_cases hspared : (sheltered || isAtRule selector) = true
    · rw [judge, if_pos hspared] at h
      cases h
      rw [judge, if_pos hspared]
    · rw [Bool.not_eq_true, Bool.or_eq_false_iff] at hspared
      obtain ⟨rfl, hat⟩ := hspared
      rw [judge_of_isAtRule_eq_false hat] at h ⊢
      dsimp only at h ⊢
      split at h
      · cases h
      · next hne =>
        cases h
        rw [List.isEmpty_iff] at hne
        refine judge_intercalate hne ?_ (fun part hpart => (List.mem_filter.1 hpart).2) ?_
        · exact fun part hpart => trimmed_of_mem_selectorParts (List.mem_filter.1 hpart).1
        · -- A selector with parts is not empty, so it is legible when nothing was taken out of it.
          rcases hleft with hsame | hlegible
          · rw [hsame]
            rintro _ ⟨⟩
            refine ⟨?_, hat⟩
            rintro rfl
            exact hne rfl
          · exact hlegible

/-- What was left of a row is left again, with the same parts, when all headers that were put
together can be read. Headers that were not touched may be anything. -/
theorem sift_sift {s : Sheet} {row : Row} (hrow : s.Holds row)
    (h : (sift tokens sheltered row).row.EachGroup fun id header =>
      header = s.selector? id ∨ IsLegible header) :
    sift tokens sheltered (sift tokens sheltered row).row =
      ⟨(sift tokens sheltered row).row, (sift tokens sheltered row).kept, []⟩ := by
  induction row generalizing sheltered with
  | nil => rfl
  | item id node rest ih =>
    rw [sift] at h ⊢
    dsimp only at h ⊢
    rw [sift, ih hrow.2 h]
  | group id selector inner rest ihinner ihrest =>
    rw [sift] at h ⊢
    dsimp only at h ⊢
    cases hheader : (judge tokens sheltered selector).header with
    | none =>
      rw [hheader] at h
      exact ihrest hrow.2.2 h
    | some left =>
      rw [hheader] at h
      obtain ⟨hleft, hinner, hrest⟩ := h
      rw [Sheet.selector?_of_node? hrow.1] at hleft
      dsimp only
      rw [sift, judge_judge hheader hleft]
      dsimp only
      rw [ihinner hrow.2.1 hinner, ihrest hrow.2.2 hrest]
      rfl

end Usage

namespace Sheet

open Usage

/-- A cleaning that leaves the row as it was leaves the sheet as it was. -/
theorem IsForest.eq_of_replaced {s t : Sheet} (hs : s.IsForest) {row : Row} (hrow : s.IsTree row)
    (h : s.Replaced t root (s.selector? root) [] row row) : t = s := by
  refine hs.eq_of_node?_eq h.isForest fun id => ?_
  by_cases hid : id ∈ row.numbers
  · exact hrow.2.node?_eq h.holds id hid
  · by_cases hroot : id = root
    · rw [hroot, h.node, (hs.presents_tree hrow).node]
    · exact h.node_eq id hid hroot

/-- Every selector below the root is the one it was before or can still be read. -/
def LeavesLegible (s t : Sheet) : Prop :=
  ∀ id ∈ t.groups root, t.selector? id = s.selector? id ∨ IsLegible (t.selector? id)

/-- Whether all selectors can be read may be asked of the row or of the sheet. The row describes the
sheet after the cleaning, and the other sheet is the one before. -/
theorem IsForest.leavesLegible_iff {s t : Sheet} (ht : t.IsForest) {row : Row}
    (hrow : t.IsTree row) : s.LeavesLegible t ↔
      row.EachGroup fun id header => header = s.selector? id ∨ IsLegible header := by
  rw [LeavesLegible, ht.groups_eq_groups hrow.1 hrow.2, hrow.2.eachGroup_iff]

/-- A second cleaning with the same files changes nothing and finds nothing but the parts that had
stayed, when the first one has left every selector legible. What it must not leave is a header that
is empty or starts with `@`; headers that the first cleaning did not change are not asked about.
Files, strategy and forest may be any. -/
theorem clean_clean {s : Sheet} (hs : s.IsForest) (strategy : ScanStrategy)
    (contents : List String) :
    let (summary, t) := s.clean strategy contents
    s.LeavesLegible t → t.clean strategy contents = ({ summary with removed := [] }, t) := by
  obtain ⟨row, hrow⟩ := hs.exists_row root
  obtain ⟨t, hclean, ht⟩ := hs.exists_clean_eq hrow strategy contents
  rw [hclean]
  intro hlegible
  obtain ⟨u, hagain, hu⟩ := ht.isForest.exists_clean_eq ht.isTree strategy contents
  have hsift := sift_sift hrow.2 ((ht.isForest.leavesLegible_iff ht.isTree).1 hlegible)
  have hsheltered : opensKeyframes (t.selector? root) = opensKeyframes (s.selector? root) := by
    rw [selector?_of_node? ht.node]
  rw [hsheltered, hsift] at hagain hu
  rw [hagain, ht.isForest.eq_of_replaced ht.isTree hu]

/-- A part stays between two commas, one goes, and a group goes that has a used selector in it. -/
def strayText : String :=
  "@p\x7ba,,x:y\x7bb:c\x7d\x7dx\x7ba\x7bb:c\x7d\x7d"

/-- What is below the root when `strayText` was read. -/
def strayRow : Row :=
  .group 1 (some "@p")
    (.group 2 (some "a,,x:y") (.item 3 (.declaration ⟨"b", "c"⟩) .nil) .nil) <|
  .group 4 (some "x") (.group 5 (some "a") (.item 6 (.declaration ⟨"b", "c"⟩) .nil) .nil) .nil

theorem clean_clean_strayText :
    let s := parse true strayText
    let (summary, t) := s.clean .safe ["a"]
    (s.IsForest ∧ s.LeavesLegible t) ∧
      t.clean .safe ["a"] = ({ summary with removed := [] }, t) := by
  have hforest := isForest_parse true strayText
  have hrow : (parse true strayText).IsTree strayRow := by decide +kernel
  have hlegible : (parse true strayText).LeavesLegible
      ((parse true strayText).clean .safe ["a"]).2 := by
    rw [(hforest.clean .safe ["a"]).leavesLegible_iff (hforest.isTree_clean hrow .safe ["a"])]
    decide +kernel
  exact ⟨⟨hforest, hlegible⟩, clean_clean hforest .safe ["a"] hlegible⟩

/-- A single empty part that stays is no part any more, and a second cleaning takes the group. -/
theorem clean_clean_ne :
    let s := parse true ",x\x7ba:b\x7d"
    let t := (s.clean .safe ["y"]).2
    s.IsForest ∧ t.descendants root = [1, 2] ∧ (t.clean .safe ["y"]).2.descendants root = [] := by
  have hforest := isForest_parse true ",x\x7ba:b\x7d"
  have hrow : (parse true ",x\x7ba:b\x7d").IsTree
      (.group 1 (some ",x") (.item 2 (.declaration ⟨"a", "b"⟩) .nil) .nil) := by
    decide +kernel
  refine ⟨hforest, ?_, ?_⟩
  · rw [hforest.descendants_clean hrow]
    decide +kernel
  · rw [(hforest.clean .safe ["y"]).descendants_clean (hforest.isTree_clean hrow .safe ["y"]),
      hforest.selector?_root_clean]
    decide +kernel

end Sheet

end Sheetsmith
