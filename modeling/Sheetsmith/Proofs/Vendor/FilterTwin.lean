import Sheetsmith.Proofs.Text.Quotable
import Sheetsmith.Proofs.Sheet.ReadBack
import Sheetsmith.Proofs.Vendor.Grafting

namespace Sheetsmith.Vendor

open Sheet Edit Text

/-- A text is one closed string: the reader that starts behind its first character, a quote, ends
the string at its last character. -/
def IsString (text body : List Char) : Prop :=
  ∃ quote, IsQuote quote ∧ text.head? = some quote ∧
    takeQuoted quote quote text.tail = (body, some [])

/-- A text between two quotes is one string if and only if the reader ends it at the second one. -/
theorem isString_quoted_iff {quote : Char} (hquote : IsQuote quote) {body : List Char} :
    IsString (quote :: body ++ [quote]) body ↔ Quotable quote body := by
  rw [quotable_iff hquote]
  constructor
  · rintro ⟨other, -, hhead, htake⟩
    cases hhead
    exact htake
  · exact fun htake => ⟨quote, hquote, rfl, htake⟩

/-- The quotes are well chosen where the value does not end with a backslash and, if it has a single
quote, escapes its double quotes. -/
theorem isString_quotedFilter_iff {value : String} :
    IsString (quotedFilter value).toList value.toList ↔
      value.toList.getLast? ≠ some '\\' ∧ ('\x27' ∈ value.toList →
        ∀ front back, value.toList = front ++ '"' :: back → front.getLast? = some '\\') := by
  by_cases hsingle : '\x27' ∈ value.toList
  · have htext : (quotedFilter value).toList = '"' :: value.toList ++ ['"'] := by
      simp [quotedFilter, hsingle]
    rw [htext, isString_quoted_iff (.inl rfl)]
    exact ⟨fun h => ⟨h.ends, fun _ => h.escaped⟩, fun h => ⟨h.2 hsingle, h.1⟩⟩
  · have htext : (quotedFilter value).toList = '\x27' :: value.toList ++ ['\x27'] := by
      simp [quotedFilter, hsingle]
    have hescaped (front back : List Char) (heq : value.toList = front ++ '\x27' :: back) :
        front.getLast? = some '\\' :=
      absurd (by simp [heq]) hsingle
    rw [htext, isString_quoted_iff (.inr rfl)]
    exact ⟨fun h => ⟨h.ends, fun hmem => absurd hmem hsingle⟩, fun h => ⟨hescaped, h.1⟩⟩

theorem folded_eq_of_isNamed_filter {d : Declaration} (h : d.isNamed "filter" = true) :
    folded d.name = "filter" := by
  have hfold : fold d.name.toList = fold "filter".toList := by
    simpa [Declaration.isNamed, sameFold] using h
  rw [folded, hfold]
  decide

/-- A visit to a filter puts its twin right behind it, unless one stands beside it. The twin is one
closed string around the value of the filter if and only if the value does not end with a backslash
and, where it has a single quote, each of its double quotes directly follows a backslash. The sheet
may be any forest, and the value any text. -/
theorem expandDeclaration_filterTwin {s : Sheet} (hs : s.IsForest) {vendors : VendorSet}
    (hmsie : vendors.msie = true) (replace : Bool) {id parent : NodeId} {d : Declaration}
    (hparent : s.parent? id = some parent) (hd : s.declaration? id = some d)
    (hname : d.isNamed "filter" = true)
    (hfree : ∀ e ∈ s.siblingDeclarations id, e.isNamed "-ms-filter" = false) :
    ∃ t twin, Runs (expandDeclaration vendors replace id) s () t ∧ Grafted s t id parent ∧
      t.declaration? s.size = some ⟨"-ms-filter", twin⟩ ∧
      (IsString twin.toList d.value.toList ↔ d.value.toList.getLast? ≠ some '\\' ∧
        ('\x27' ∈ d.value.toList →
          ∀ front back, d.value.toList = front ++ '"' :: back → front.getLast? = some '\\')) := by
  have hrule : VendorRule.ofProperty (folded d.name) = .filterTwin := by
    rw [folded_eq_of_isNamed_filter hname, VendorRule.ofProperty_filter]
  let twin : Demand := .named "-ms-filter" (quotedFilter d.value)
  have hdemands : demands vendors d = [twin] := by
    rw [demands, hrule]
    exact if_pos hmsie
  have hunmet : ¬ twin.Met s id := by
    rw [Demand.met_iff, List.any_eq_true]
    rintro ⟨e, he, hclash⟩
    exact Bool.eq_false_iff.1 (hfree e he) hclash
  have hinsert := run_insertDeclarationAfter hs id "-ms-filter" (quotedFilter d.value)
  rw [hparent] at hinsert
  obtain ⟨parent', hgraft, hnew⟩ := grafted_of_runs_insertDeclarationAfter hs hinsert
  obtain rfl : parent' = parent := Option.some.inj (hgraft.parent_eq.symm.trans hparent)
  refine ⟨_, quotedFilter d.value, ?_, hgraft, hnew, isString_quotedFilter_iff⟩
  rw [runs_expandDeclaration_iff hd (by simp [hrule]), hdemands, runs_forM_cons_iff]
  exact ⟨_, Demand.runs_meet_iff.2 (.inr ⟨hunmet, _, hinsert⟩), runs_forM_nil_iff.2 rfl⟩

/-- A filter with a string in single quotes. -/
def quotedFilterText : String :=
  "a\x7bFilter:x(a=\x27b\x27)\x7d"

theorem expandDeclaration_filterTwin_quotedFilterText :
    let s := parse true quotedFilterText
    let d : Declaration := ⟨"Filter", "x(a=\x27b\x27)"⟩
    (s.IsForest ∧ s.parent? 2 = some 1 ∧ s.declaration? 2 = some d ∧
      ∀ e ∈ s.siblingDeclarations 2, e.isNamed "-ms-filter" = false) ∧
      ∃ t twin, Runs (expandDeclaration (.only .msie) false 2) s () t ∧ Grafted s t 2 1 ∧
        t.declaration? s.size = some ⟨"-ms-filter", twin⟩ ∧ IsString twin.toList d.value.toList := by
  intro s d
  have hs : s.IsForest := isForest_parse true quotedFilterText
  obtain ⟨hparent, hd, hfree⟩ : s.parent? 2 = some 1 ∧ s.declaration? 2 = some d ∧
      ∀ e ∈ s.siblingDeclarations 2, e.isNamed "-ms-filter" = false := by
    decide +kernel
  have hmsie : (VendorSet.only .msie).msie = true := rfl
  obtain ⟨t, twin, hrun, hgraft, hnew, hstring⟩ :=
    expandDeclaration_filterTwin hs hmsie false hparent hd (by decide) hfree
  refine ⟨⟨hs, hparent, hd, hfree⟩, t, twin, hrun, hgraft, hnew, hstring.2 ⟨by decide, ?_⟩⟩
  intro _ front back heq
  have hdouble : '"' ∉ d.value.toList := by decide
  exact absurd (by simp [heq]) hdouble

/-- A single quote calls for double quotes also where a backslash in front of it keeps it from
ending a string. All strings of this value are closed, yet its twin ends early; single quotes would
have made it one string. -/
theorem expand_filterTwin_ne :
    let value := "x(\"it\\\x27s\")"
    let s := parse true ("a\x7bfilter:" ++ value ++ "\x7d")
    let run := (expand (.only .msie) root).run.run s
    (s.declaration? 2 = some ⟨"filter", value⟩ ∧ Closed (fun _ _ => True) value.toList) ∧
      (run.1 = .ok () ∧ run.2.declaration? 3 = some ⟨"-ms-filter", "\"" ++ value ++ "\""⟩) ∧
      ¬ IsString ("\"" ++ value ++ "\"").toList value.toList ∧
      IsString ("\x27" ++ value ++ "\x27").toList value.toList := by
  refine ⟨by decide +kernel, by decide +kernel, ?_, '\x27', .inr rfl, by decide, by decide⟩
  rintro ⟨quote, -, hhead, htake⟩
  obtain rfl : quote = '"' := by simpa using hhead.symm
  revert htake
  decide

end Sheetsmith.Vendor
