import Mathlib.Algebra.Field.Rat
import Sheetsmith.Proofs.Value.Sides

namespace Sheetsmith.Value

open Text

/-- The number that a row of decimal digits stands for. -/
def digitsValue (digits : List Char) : Nat :=
  digits.foldl (fun n c => 10 * n + (c.toNat - '0'.toNat)) 0

theorem digitsValue_eq_zero {digits : List Char} (h : ∀ c ∈ digits, isZero c = true) :
    digitsValue digits = 0 := by
  induction digits with
  | nil => rfl
  | cons c cs ih =>
    obtain ⟨hc, hcs⟩ := List.forall_mem_cons.1 h
    rw [eq_zero_of_isZero hc]
    exact ih hcs

namespace Spelling

/-- The number of a length. -/
def number (l : Spelling) : ℚ :=
  let decimals := l.fraction.drop 1
  let magnitude : ℚ := digitsValue l.whole + digitsValue decimals / 10 ^ decimals.length
  if l.sign = ['-'] then -magnitude else magnitude

/-- What a length says: its number and its unit. Zero has no unit. -/
def measure (l : Spelling) : ℚ × List Char :=
  (l.number, if l.number = 0 then [] else l.unit)

variable {l : Spelling}

theorem measure_dropped (l : Spelling) : l.dropped.measure = l.measure := by
  by_cases hfound : l.whole ≠ [] ∧ (∀ c ∈ l.whole, isZero c = true) ∧ l.fraction ≠ []
  · have heq : l.dropped = { l with whole := [] } := if_pos hfound
    have hnumber : l.dropped.number = l.number := by
      rw [number, number, heq, digitsValue_eq_zero hfound.2.1]
      rfl
    rw [measure, measure, hnumber, heq]
  · rw [dropped, if_neg hfound]

/-- A length that has lost its unit is zero, which says the same without it. -/
theorem measure_bared (l : Spelling) : l.bared.measure = l.measure := by
  by_cases hfound : (∀ c ∈ l.whole, isZero c = true) ∧ l.fraction = [] ∧ IsUnit l.unit
  · have heq : l.bared = { l with whole := ['0'], unit := [] } := if_pos hfound
    have hnumber : l.number = 0 := by
      rw [number, digitsValue_eq_zero hfound.1, hfound.2.1]
      simp [digitsValue]
    have hnumber' : l.bared.number = 0 := by
      rw [number, heq, hfound.2.1]
      simp [digitsValue]
    rw [measure, measure, hnumber, hnumber', if_pos rfl, if_pos rfl]
  · rw [bared, if_neg hfound]

/-- A length has no more than one unit to lose. -/
theorem bared_bared (l : Spelling) : l.bared.bared = l.bared := by
  by_cases hfound : (∀ c ∈ l.whole, isZero c = true) ∧ l.fraction = [] ∧ IsUnit l.unit
  · have heq : l.bared = { l with whole := ['0'], unit := [] } := if_pos hfound
    rw [heq, bared, if_neg]
    rintro ⟨-, -, hunit⟩
    exact absurd (show IsUnit [] from hunit) (by decide)
  · have heq : l.bared = l := if_neg hfound
    rw [heq, heq]

/-- A length that has lost its leading zeros and its unit has no more leading zeros to lose. -/
theorem dropped_bared_dropped (l : Spelling) : l.dropped.bared.dropped = l.dropped.bared := by
  have hdropped : l.dropped.dropped = l.dropped := by
    by_cases hfound : l.whole ≠ [] ∧ (∀ c ∈ l.whole, isZero c = true) ∧ l.fraction ≠ []
    · have heq : l.dropped = { l with whole := [] } := if_pos hfound
      rw [heq, dropped, if_neg fun h => h.1 rfl]
    · have heq : l.dropped = l := if_neg hfound
      rw [heq, heq]
  by_cases hfound : (∀ c ∈ l.dropped.whole, isZero c = true) ∧ l.dropped.fraction = [] ∧
      IsUnit l.dropped.unit
  · have heq : l.dropped.bared = { l.dropped with whole := ['0'], unit := [] } := if_pos hfound
    rw [heq, dropped, if_neg fun h => h.2.2 hfound.2.1]
  · have heq : l.dropped.bared = l.dropped := if_neg hfound
    rw [heq, hdropped]

end Spelling

/-- What a text that is one length says. -/
def measure (word : List Char) : ℚ × List Char :=
  (Spelling.ofText word).measure

/-- A length that no pass makes shorter. -/
def IsShort (word : List Char) : Prop :=
  ∃ l : Spelling, l.Valid ∧ l.dropped = l ∧ l.bared = l ∧ l.text = word

/-- A pass that keeps each length of a value keeps the value, with all its blanks. -/
theorem Respells.rewriteFrom_eq_self {body : List Char → Option Nat}
    {image : List Char → List Char} {f : Spelling → Spelling} (h : Respells body image f)
    {value : List Char} (hvalue : ∀ w ∈ words value, ∃ l : Spelling, l.Valid ∧ f l = l ∧ l.text = w) :
    rewriteFrom '.' body image true value = value := by
  unfold words at hvalue
  induction value using runs_induction (p := (!isBlank ·)) with
  | nil => rw [rewriteFrom]
  | skip c cs hc ih =>
    have hblank : isBlank c = true := by simpa using hc
    rw [runs_cons_of_false hc] at hvalue
    rw [h.rewriteFrom_blank hblank, ih hvalue]
  | word word rest hword ih =>
    rw [runs_append_of_isRun hword] at hvalue
    obtain ⟨l, hl, hsame, rfl⟩ := hvalue word (by simp)
    have hrest : StartsBlank rest := fun c hc => by simpa using hword.ends c hc
    rw [h.rewriteFrom_text hl hrest, hsame, ih fun w hw => hvalue w (by simp [hw])]

section

variable {value : List Char}

/-- Short lengths stay as they are, with all blanks between them. -/
theorem shortenLengths_eq_self (h : ∀ w ∈ words value, IsShort w) : shortenLengths value = value := by
  rw [shortenLengths_eq, respells_dropped.rewriteFrom_eq_self, respells_bared.rewriteFrom_eq_self]
  · intro w hw
    obtain ⟨l, hl, -, hbared, rfl⟩ := h w hw
    exact ⟨l, hl, hbared, rfl⟩
  · intro w hw
    obtain ⟨l, hl, hdropped, -, rfl⟩ := h w hw
    exact ⟨l, hl, hdropped, rfl⟩

/-- Each length of a value loses its leading zeros and then its unit. Words that are no lengths are
excluded, as the passes could cut into them. -/
theorem words_shortenLengths_eq (h : ∀ w ∈ words value, IsLength w) :
    words (shortenLengths value) =
      (words value).map fun w => (Spelling.ofText w).dropped.bared.text := by
  rw [shortenLengths_eq, respells_bared.words_rewriteFrom_eq (respells_dropped.words_rewriteFrom h).1,
    respells_dropped.words_rewriteFrom_eq h, List.map_map]
  refine List.map_congr_left fun w hw => ?_
  obtain ⟨l, hl, rfl⟩ := h w hw
  rw [Function.comp_apply, hl.ofText_text, hl.dropped.ofText_text]

/-- Shortening the lengths of a value keeps what each of them says and makes each of them short. The
number of words stays the same, and so does their order. -/
theorem measure_words_shortenLengths (h : ∀ w ∈ words value, IsLength w) :
    (∀ w ∈ words (shortenLengths value), IsShort w) ∧
      (words (shortenLengths value)).map measure = (words value).map measure := by
  rw [words_shortenLengths_eq h, List.forall_mem_map, List.map_map]
  constructor
  · intro w hw
    obtain ⟨l, hl, rfl⟩ := h w hw
    rw [hl.ofText_text]
    exact ⟨l.dropped.bared, hl.dropped.bared, l.dropped_bared_dropped, l.dropped.bared_bared, rfl⟩
  · refine List.map_congr_left fun w hw => ?_
    obtain ⟨l, hl, rfl⟩ := h w hw
    rw [Function.comp_apply, measure, measure, hl.ofText_text, hl.dropped.bared.ofText_text,
      Spelling.measure_bared, Spelling.measure_dropped]

end

/-- Sides that were left out once leave no more to be left out. -/
theorem collapseSides_collapseSides (parts : List (List Char)) :
    collapseSides (collapseSides parts) = collapseSides parts := by
  have htwo (a b : List Char) : collapseSides (collapseSides.collapseTwo a b) =
      collapseSides.collapseTwo a b := by
    unfold collapseSides.collapseTwo
    split
    · rfl
    · next hne => exact if_neg hne
  have hthree (a b c : List Char) : collapseSides (collapseSides.collapseThree a b c) =
      collapseSides.collapseThree a b c := by
    unfold collapseSides.collapseThree
    split
    · exact htwo a b
    · next hne => exact if_neg hne
  match parts with
  | [] | [_] => rfl
  | [a, b] => exact htwo a b
  | [a, b, c] => exact hthree a b c
  | [a, b, c, d] =>
    rw [collapseSides]
    split
    · exact hthree a b c
    · next hne => exact if_neg hne
  | _ :: _ :: _ :: _ :: _ :: _ => rfl

/-- A box that is collapsed is collapsed no further. The value may be any. -/
theorem collapseBox_collapseBox (value : List Char) :
    collapseBox (collapseBox value) = collapseBox value := by
  generalize hout : collapseBox value = out
  unfold collapseBox at hout
  dsimp only at hout
  split at hout
  · rw [← words] at hout
    have hwords : words out = collapseSides (words value) :=
      hout ▸ words_intercalate_collapseSides value
    unfold collapseBox
    dsimp only
    rw [← words, hwords, collapseSides_collapseSides, hout, ite_self]
  · next hparts =>
    subst hout
    unfold collapseBox
    dsimp only
    rw [if_neg hparts]

/-- What was shortened has short lengths only, those of the value without its repeated sides. The
property decides only whether sides are left out at the end. -/
theorem words_optimizeLengths (property : String) {value : List Char}
    (h : ∀ w ∈ words value, IsLength w) :
    (∀ w ∈ words (optimizeLengths property value), IsShort w) ∧
      words (optimizeLengths property value) <+: words (shortenLengths value) := by
  have hshort := (measure_words_shortenLengths h).1
  rw [optimizeLengths]
  split
  · have hfront := (spread_words_collapseBox (shortenLengths value)).2
    exact ⟨fun w hw => hshort w (hfront.subset hw), hfront⟩
  · exact ⟨hshort, List.prefix_refl _⟩

/-- What was shortened once is not shortened any further, blanks included. The property may be any
one, and the value may have any number of lengths. -/
theorem optimizeLengths_optimizeLengths (property : String) {value : List Char}
    (h : ∀ w ∈ words value, IsLength w) :
    optimizeLengths property (optimizeLengths property value) = optimizeLengths property value := by
  have hself := shortenLengths_eq_self (words_optimizeLengths property h).1
  rw [optimizeLengths, hself, optimizeLengths]
  split
  · exact collapseBox_collapseBox _
  · rfl

/-- Shortening the lengths of a value keeps what they say. Outside of the box properties each length
keeps its number, and its unit unless it is zero; the sides that the value of a box property gives
keep theirs, and there are no more words than before. What was shortened once is not shortened any
further. All words of the value are lengths, with any blanks between them and any number of digits;
other values are not spoken of. -/
theorem measures_optimizeUnits {value : String} (h : ∀ w ∈ words value.toList, IsLength w)
    (property : String) :
    let short := optimizeUnits property value
    (∀ w ∈ words short.toList, IsLength w) ∧
    (property ∉ boxProperties →
      (words short.toList).map measure = (words value.toList).map measure) ∧
    (property ∈ boxProperties → words value.toList ≠ [] → (words value.toList).length ≤ 4 →
      (spread (words short.toList)).map measure = (spread (words value.toList)).map measure ∧
        (words short.toList).length ≤ (words value.toList).length) ∧
    optimizeUnits property short = short := by
  obtain ⟨hshort, hfront⟩ := words_optimizeLengths property h
  obtain ⟨-, hmeasures⟩ := measure_words_shortenLengths h
  intro short
  have htext : short.toList = optimizeLengths property value.toList := String.toList_ofList
  rw [htext]
  refine ⟨fun w hw => ?_, fun hbox => ?_, fun hbox _ _ => ⟨?_, ?_⟩, ?_⟩
  · obtain ⟨l, hl, -, -, rfl⟩ := hshort w hw
    exact isLength_text hl
  · rw [optimizeLengths, if_neg (mt List.contains_iff_mem.1 hbox), hmeasures]
  · rw [optimizeLengths, if_pos (List.contains_iff_mem.2 hbox), (spread_words_collapseBox _).1,
      map_spread, map_spread, hmeasures]
  · have hlength := congrArg List.length hmeasures
    rw [List.length_map, List.length_map] at hlength
    exact hlength ▸ hfront.length_le
  · rw [optimizeUnits, htext, optimizeLengths_optimizeLengths property h]
    rfl

/-- Lengths with signs, leading zeros, units in capitals and zeros of many kinds. -/
def mixedLengths : String :=
  "+00.50PX\t-0em  0.0% 007.25in"

theorem measures_optimizeUnits_mixedLengths :
    (∀ w ∈ words mixedLengths.toList, IsLength w) ∧
    (optimizeUnits "margin" mixedLengths = "+.50PX\t-0  .0% 007.25in" ∧
      (words mixedLengths.toList).map measure =
        [(1 / 2, ['P', 'X']), (0, []), (0, []), (29 / 4, ['i', 'n'])]) ∧
    (spread (words (optimizeUnits "margin" mixedLengths).toList)).map measure =
      (spread (words mixedLengths.toList)).map measure ∧
    (words (optimizeUnits "width" mixedLengths).toList).map measure =
      (words mixedLengths.toList).map measure ∧
    optimizeUnits "margin" (optimizeUnits "margin" mixedLengths) =
      optimizeUnits "margin" mixedLengths := by
  have hlengths : ∀ w ∈ words mixedLengths.toList, IsLength w := by decide +kernel
  obtain ⟨-, -, hbox, hagain⟩ := measures_optimizeUnits hlengths "margin"
  obtain ⟨-, hother, -, -⟩ := measures_optimizeUnits hlengths "width"
  exact ⟨hlengths, ⟨by decide +kernel, by decide +kernel⟩,
    (hbox (by decide) (by decide +kernel) (by decide +kernel)).1, hother (by decide), hagain⟩

end Sheetsmith.Value
