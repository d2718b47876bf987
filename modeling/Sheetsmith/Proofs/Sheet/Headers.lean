import Sheetsmith.Proofs.Sheet.Slimming
import Sheetsmith.Proofs.Value.Shrinking

namespace Sheetsmith

open Sheet

namespace Event

/-- What is left in a buffer may be a declaration, and is never reported as the opening of a block.
-/
theorem opened_not_mem_declaration? {trim : Bool} {buffer : String} {selector : Option String} :
    .opened selector ∉ (declaration? trim buffer).toList := by
  intro hmem
  obtain ⟨⟨name, value⟩, -, hevent⟩ := Option.map_eq_some_iff.1 (Option.mem_toList.1 hmem)
  cases hevent

theorem opened_not_mem_atSemicolon {trim : Bool} {buffer : String} {selector : Option String} :
    .opened selector ∉ (atSemicolon trim buffer).1 := by
  have hdeclaration := @opened_not_mem_declaration? trim buffer selector
  unfold atSemicolon
  cases h : declaration? trim buffer with
  | some event =>
    rw [h] at hdeclaration
    exact hdeclaration
  | none =>
    dsimp only
    split
    · simp
    · split <;> simp

theorem opened_not_mem_atClose {trim : Bool} {depth : Nat} {buffer : String}
    {selector : Option String} : .opened selector ∉ (atClose trim depth buffer).1 := by
  rw [atClose_eq, List.mem_append, not_or]
  refine ⟨opened_not_mem_declaration?, ?_⟩
  split <;> simp

/-- A header is what stands in the buffer, without the blanks around it when the reader trims, and
is not empty then. -/
theorem atOpen_eq_opened {trim : Bool} {buffer selector : String}
    (h : atOpen trim buffer = .opened (some selector)) :
    selector ≠ "" ∧ selector = clip trim buffer.toList := by
  unfold atOpen at h
  dsimp only at h
  split at h
  · cases h
  · next hne =>
    cases h
    exact ⟨fun hempty => hne (by rw [hempty]; rfl), rfl⟩

/-- Every header that is reported was in the buffer when its block opened, and was not blank. A
block whose header is blank is reported as one without a header. The buffer that the reading starts
with, the depth and the text may be any. -/
theorem exists_clip_of_opened_mem {trim : Bool} {depth : Nat} {buffer selector : String}
    {cs : List Char} (h : .opened (some selector) ∈ scan trim depth buffer cs) :
    selector ≠ "" ∧ ∃ text, selector = clip trim text := by
  fun_induction scan trim depth buffer cs with
  | case1 => exact absurd h opened_not_mem_declaration?
  | case2 depth buffer rest ih =>
    rcases List.mem_cons.1 h with hopen | h
    · obtain ⟨hne, hclip⟩ := atOpen_eq_opened hopen.symm
      exact ⟨hne, _, hclip⟩
    · exact ih h
  | case3 depth buffer rest events buffer' heq _ ih =>
    obtain rfl : events = (atSemicolon trim buffer).1 := (congrArg Prod.fst heq).symm
    exact ih ((List.mem_append.1 h).resolve_left opened_not_mem_atSemicolon)
  | case4 depth buffer rest events buffer' heq _ _ ih =>
    obtain rfl : events = (atClose trim depth buffer).1 := (congrArg Prod.fst heq).symm
    exact ih ((List.mem_append.1 h).resolve_left opened_not_mem_atClose)
  | case5 depth buffer c rest _ _ _ _ _ _ ih => exact ih h
  | case6 depth buffer c rest _ _ _ _ _ _ _ _ ih =>
    exact ih ((List.mem_cons.1 h).resolve_left fun heq => by cases heq)
  | case7 => exact absurd h opened_not_mem_declaration?
  | case8 depth buffer c rest _ _ _ _ _ ih => exact ih h

end Event

namespace Sheet

/-- No group has an empty header. -/
def Headed (s : Sheet) : Prop :=
  ∀ id, s.selector? id ≠ some ""

/-- Each header of a group has a property. -/
def EachHeader (P : String → Prop) (s : Sheet) : Prop :=
  ∀ id selector, s.selector? id = some selector → P selector

/-- A header as it is found in a text that was read: it is not empty, and there are no blanks around
it. -/
def IsHeader (selector : String) : Prop :=
  selector ≠ "" ∧ Text.trim selector.toList = selector.toList

variable {s : Sheet}

/-- No group gets an empty header by a node being taken out. -/
theorem Headed.remove (hs : s.Headed) (id : NodeId) : (s.remove id).Headed := by
  intro i
  rw [selector?_remove]
  exact hs i

/-- A header that is not empty may be set, and a header may be taken away. -/
theorem Headed.setSelector (hs : s.Headed) (id : NodeId) {selector : Option String}
    (hselector : selector ≠ some "") : (s.setSelector id selector).Headed := by
  intro i
  by_cases hi : i = id
  · rw [selector?, group?_setSelector, if_pos hi]
    cases s.group? i with
    | none => simp
    | some g => exact hselector
  · rw [selector?_setSelector_of_ne hi]
    exact hs i

/-- Reading gives no group an empty header, whatever the text and with or without trimming. A blank
header is no header. -/
theorem headed_parse (trim : Bool) (text : String) : (parse trim text).Headed := by
  intro id hselector
  obtain ⟨hne, -⟩ := Event.exists_clip_of_opened_mem (opened_mem_of_selector?_ofEvents hselector)
  exact hne rfl

/-- All headers of a text are trimmed when it is read with trimming. Without trimming only
`headed_parse` holds. -/
theorem eachHeader_parse (text : String) : (parse true text).EachHeader IsHeader := by
  intro id selector hselector
  obtain ⟨hne, cs, rfl⟩ :=
    Event.exists_clip_of_opened_mem (opened_mem_of_selector?_ofEvents hselector)
  refine ⟨hne, ?_⟩
  rw [Event.clip, if_pos rfl, String.toList_ofList, Text.trim_trim]

namespace EachHeader

variable {t : Sheet} {P : String → Prop}

/-- Headers that are as the reader reports them are not empty. -/
theorem headed (h : s.EachHeader IsHeader) : s.Headed :=
  fun id hselector => (h id "" hselector).1 rfl

/-- Whether each header has a property depends on nothing but the headers. -/
theorem congr (h : s.EachHeader P) (hselector : ∀ id, t.selector? id = s.selector? id) :
    t.EachHeader P :=
  fun id selector hid => h id selector ((hselector id).symm.trans hid)

theorem remove (h : s.EachHeader P) (id : NodeId) : (s.remove id).EachHeader P :=
  h.congr fun i => selector?_remove s id i

/-- A header with the property may be put in for another one. -/
theorem setSelector (h : s.EachHeader P) (id : NodeId) {selector : String} (hselector : P selector) :
    (s.setSelector id (some selector)).EachHeader P := by
  intro i header hi
  by_cases hid : i = id
  · rw [hid, selector?, group?_setSelector, if_pos rfl] at hi
    obtain ⟨g, hg, hheader⟩ := Option.bind_eq_some_iff.1 hi
    obtain ⟨old, -, rfl⟩ := Option.map_eq_some_iff.1 hg
    cases hheader
    exact hselector
  · rw [selector?_setSelector_of_ne hid] at hi
    exact h i header hi

end EachHeader

/-- What a group needs in a text, its children left aside, is what its header needs. -/
theorem cost_group {id : NodeId} {selector : String} (h : s.selector? id = some selector) :
    s.cost id = headerCost (selectorParts selector) := by
  obtain ⟨g, hg, hselector⟩ := Option.bind_eq_some_iff.1 h
  rw [cost, group?_eq_some_iff.1 hg]
  dsimp only
  rw [hselector, Option.elim_some]

/-- A new header changes what its own group costs and nothing else. -/
theorem cost_setSelector_of_ne {id i : NodeId} (hne : i ≠ id) (selector : Option String) :
    (s.setSelector id selector).cost i = s.cost i := by
  unfold cost
  rw [node?_setSelector, if_neg hne,
    isLastChild_congr (parent?_setSelector s id · selector) (children_setSelector s id · selector)]

/-- The parts of two headers with a comma between them are the parts of both. An empty header has no
parts, although a comma beside it would make one, so neither may be empty. -/
theorem selectorParts_append {a b : String} (ha : a ≠ "") (hb : b ≠ "") :
    selectorParts (a ++ "," ++ b) = selectorParts a ++ selectorParts b := by
  have hempty {x : String} (hx : x ≠ "") : x.isEmpty = false := by simpa using hx
  have hjoin : (a ++ "," ++ b).isEmpty = false := hempty (by simp)
  have hlist : (a ++ "," ++ b).toList = a.toList ++ ',' :: b.toList := by simp
  rw [selectorParts, selectorParts, selectorParts, hempty ha, hempty hb, hjoin, hlist]
  simp only [Bool.false_eq_true, if_false, Text.splitAtEach_eq_splitOn,
    List.splitOn_append_cons_self, List.map_append]

/-- Every header that is not empty has parts, also one of nothing but commas. -/
theorem selectorParts_ne_nil {selector : String} (h : selector ≠ "") : selectorParts selector ≠ [] :=
  fun hnil => h (by simpa using (selectorParts_eq_nil_iff selector).1 hnil)

/-- Two headers written as one need no more room: one comma takes the place of two braces. Neither
may be missing, since a group without a header is written without braces. -/
theorem headerCost_append_le {parts more : List String} (hparts : parts ≠ []) (hmore : more ≠ []) :
    headerCost (parts ++ more) ≤ headerCost parts + headerCost more := by
  have hcomma : ",".utf8ByteSize = 1 := by decide
  have hlength := List.length_pos_iff.2 hparts
  have hlength' := List.length_pos_iff.2 hmore
  have hempty {xs : List String} (hxs : xs ≠ []) : xs.isEmpty = false := by simpa using hxs
  rw [headerCost, headerCost, headerCost, hempty hparts, hempty hmore,
    hempty (List.append_ne_nil_of_left_ne_nil hparts more)]
  simp only [Bool.false_eq_true, if_false, Text.utf8ByteSize_intercalate, List.map_append,
    List.sum_append, List.length_append, hcomma]
  omega

end Sheet

end Sheetsmith
