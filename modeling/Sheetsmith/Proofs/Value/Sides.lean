import Mathlib.Data.List.Chain
import Sheetsmith.Proofs.Value.Shrinking
import Sheetsmith.Proofs.Value.Zeros

namespace Sheetsmith.Value

open Text

/-- The four sides that one to four words give a box: the left side follows the right one, the lower
side follows the upper one, and the right side follows the upper one. -/
def spread {α : Type} : List α → List α
  | [a] => [a, a, a, a]
  | [a, b] => [a, b, a, b]
  | [a, b, c] => [a, b, c, b]
  | sides => sides

/-- What is done to each of the words is done to each of the sides. -/
theorem map_spread {α β : Type} (f : α → β) (sides : List α) :
    (spread sides).map f = spread (sides.map f) := by
  match sides with
  | [] | [_] | [_, _] | [_, _, _] | _ :: _ :: _ :: _ :: _ => rfl

/-- Texts with blanks between them have the words of each. -/
theorem words_intercalate (parts : List (List Char)) :
    words ([' '].intercalate parts) = parts.flatMap words := by
  induction parts with
  | nil => exact runs_nil
  | cons part parts ih =>
    cases parts with
    | nil => simp
    | cons next parts =>
      rw [List.intercalate_cons_cons, List.append_assoc, List.singleton_append, words,
        runs_append_cons (by decide), List.flatMap_cons, ← ih]
      rfl

theorem isRun_of_mem_words {value word : List Char} (h : word ∈ words value) :
    IsRun (!isBlank ·) word [] := by
  unfold words at h
  induction value using runs_induction (p := (!isBlank ·)) with
  | nil =>
    rw [runs_nil] at h
    cases h
  | skip c cs hc ih =>
    rw [runs_cons_of_false hc] at h
    exact ih h
  | word front rest hfront ih =>
    rw [runs_append_of_isRun hfront] at h
    rcases List.mem_cons.1 h with rfl | h
    · exact ⟨hfront.ne_nil, hfront.all, by simp⟩
    · exact ih h

/-- A word of a value has itself as its only word. -/
theorem words_of_mem_words {value word : List Char} (h : word ∈ words value) : words word = [word] := by
  have hruns := runs_append_of_isRun (isRun_of_mem_words h)
  rwa [List.append_nil, runs_nil] at hruns

/-- Leaving out sides that repeat leaves the four sides, for two to four words. A single word is
left as it is anyway. -/
theorem spread_collapseSides {parts : List (List Char)} (h : 2 ≤ parts.length) (h' : parts.length ≤ 4) :
    spread (collapseSides parts) = spread parts := by
  have htwo (a b : List Char) : spread (collapseSides.collapseTwo a b) = [a, b, a, b] := by
    unfold collapseSides.collapseTwo
    split
    · next heq => rw [heq]; rfl
    · rfl
  have hthree (a b c : List Char) : spread (collapseSides.collapseThree a b c) = [a, b, c, b] := by
    unfold collapseSides.collapseThree
    split
    · next heq => rw [htwo, heq]
    · rfl
  match parts with
  | [a, b] => exact htwo a b
  | [a, b, c] => exact hthree a b c
  | [a, b, c, d] =>
    rw [collapseSides]
    split
    · next heq => rw [hthree, heq]; rfl
    · rfl

/-- The sides that are left are the words of the new value. -/
theorem words_intercalate_collapseSides (value : List Char) :
    words ([' '].intercalate (collapseSides (words value))) = collapseSides (words value) := by
  have hfront := isPrefix_collapseSides (words value)
  rw [words_intercalate,
    List.flatMap_congr fun part hpart => words_of_mem_words (hfront.subset hpart)]
  exact List.flatMap_singleton' _

/-- Leaving out the sides that repeat leaves the four sides as they are. The value may be any, also
one of more than four words, of which none is left out. -/
theorem spread_words_collapseBox (value : List Char) :
    spread (words (collapseBox value)) = spread (words value) ∧
      words (collapseBox value) <+: words value := by
  unfold collapseBox
  dsimp only
  split
  · next hparts =>
    rw [← words, words_intercalate_collapseSides]
    exact ⟨spread_collapseSides hparts.1 hparts.2.1, isPrefix_collapseSides _⟩
  · exact ⟨rfl, List.prefix_refl _⟩

/-- A value of one to four lengths. -/
structure IsBoxValue (value : String) : Prop where
  lengths : ∀ w ∈ words value.toList, IsLength w
  ne_nil : words value.toList ≠ []
  length_le : (words value.toList).length ≤ 4

/-- A value of one length. -/
structure IsSideValue (value : String) : Prop extends IsBoxValue value where
  length_eq : (words value.toList).length = 1

instance : DecidablePred IsBoxValue := fun value =>
  decidable_of_iff ((∀ w ∈ words value.toList, IsLength w) ∧ words value.toList ≠ [] ∧
      (words value.toList).length ≤ 4)
    ⟨fun h => ⟨h.1, h.2.1, h.2.2⟩, fun h => ⟨h.lengths, h.ne_nil, h.length_le⟩⟩

instance : DecidablePred IsSideValue := fun value =>
  decidable_of_iff (IsBoxValue value ∧ (words value.toList).length = 1)
    ⟨fun h => ⟨h.1, h.2⟩, fun h => ⟨h.toIsBoxValue, h.length_eq⟩⟩

theorem spread_eq_nil {α : Type} {sides : List α} : spread sides = [] ↔ sides = [] := by
  match sides with
  | [] | [_] | [_, _] | [_, _, _] | _ :: _ :: _ :: _ :: _ => simp [spread]

/-- The sides of a box stay the same lengths when its value is shortened, whether or not the
property is one whose sides are collapsed. -/
theorem IsBoxValue.optimizeUnits {value : String} (h : IsBoxValue value) (property : String) :
    IsBoxValue (optimizeUnits property value) ∧
      (words (optimizeUnits property value).toList).length ≤ (words value.toList).length ∧
      (spread (words (optimizeUnits property value).toList)).map lengthKey =
        (spread (words value.toList)).map lengthKey := by
  obtain ⟨hlengths, hkeys⟩ := words_shortenLengths h.lengths
  have hlength := congrArg List.length hkeys
  rw [List.length_map, List.length_map] at hlength
  have hshort : ∃ short, (Value.optimizeUnits property value).toList = short ∧
      spread (words short) = spread (words (shortenLengths value.toList)) ∧
      words short <+: words (shortenLengths value.toList) := by
    rw [Value.optimizeUnits, String.toList_ofList, optimizeLengths]
    split
    · exact ⟨_, rfl, spread_words_collapseBox _⟩
    · exact ⟨_, rfl, rfl, List.prefix_refl _⟩
  obtain ⟨short, heq, hspread, hfront⟩ := hshort
  have hle : (words short).length ≤ (words value.toList).length := hlength ▸ hfront.length_le
  have hne : words (shortenLengths value.toList) ≠ [] := by
    rw [← List.length_pos_iff, hlength, List.length_pos_iff]
    exact h.ne_nil
  rw [heq]
  refine ⟨⟨?_, ?_, ?_⟩, hle, ?_⟩
  · rw [heq]
    exact fun w hw => hlengths w (hfront.subset hw)
  · rw [heq, Ne, ← spread_eq_nil, hspread, spread_eq_nil]
    exact hne
  · rw [heq]
    exact Nat.le_trans hle h.length_le
  · rw [hspread, map_spread, map_spread, hkeys]

/-- A value of one length stays one, and the same. -/
theorem IsSideValue.optimizeUnits {value : String} (h : IsSideValue value) (property : String) :
    IsSideValue (optimizeUnits property value) ∧
      (words (optimizeUnits property value).toList).map lengthKey =
        (words value.toList).map lengthKey := by
  obtain ⟨hbox, hle, hkeys⟩ := h.toIsBoxValue.optimizeUnits property
  have hone : (words (Value.optimizeUnits property value).toList).length = 1 := by
    have hpos := List.length_pos_iff.2 hbox.ne_nil
    have := h.length_eq
    omega
  obtain ⟨w, hw⟩ := List.length_eq_one_iff.1 h.length_eq
  obtain ⟨w', hw'⟩ := List.length_eq_one_iff.1 hone
  rw [hw, hw'] at hkeys ⊢
  exact ⟨⟨hbox, hone⟩, congrArg (List.take 1) hkeys⟩

end Sheetsmith.Value
