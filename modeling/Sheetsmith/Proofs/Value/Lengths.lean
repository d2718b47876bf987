import Sheetsmith.Proofs.Text.Rewriting
import Sheetsmith.Proofs.Text.Runs
import Sheetsmith.Proofs.Value.Units

namespace Sheetsmith.Value

open Text

/-- How a length is written. -/
structure Spelling where
  /-- A plus or a minus sign, or nothing. -/
  sign : List Char
  /-- The digits in front of the point. -/
  whole : List Char
  /-- The point and the digits behind it, or nothing. -/
  fraction : List Char
  unit : List Char

namespace Spelling

/-- The text behind the sign. -/
def unsigned (l : Spelling) : List Char :=
  l.whole ++ (l.fraction ++ l.unit)

def text (l : Spelling) : List Char :=
  l.sign ++ l.unsigned

/-- An ASCII number with a unit or `%`, or a single zero without one. -/
structure Valid (l : Spelling) : Prop where
  sign : l.sign = [] ∨ l.sign = ['+'] ∨ l.sign = ['-']
  whole : ∀ c ∈ l.whole, c.isDigit = true
  fraction : (l.fraction = [] ∧ l.whole ≠ []) ∨
    ∃ digits, l.fraction = '.' :: digits ∧ digits ≠ [] ∧ ∀ c ∈ digits, c.isDigit = true
  unit : l.unit = ['%'] ∨ IsUnit l.unit ∨ (l.unit = [] ∧ l.fraction = [] ∧ l.whole = ['0'])

end Spelling

/-- A text that is one length. -/
def IsLength (cs : List Char) : Prop :=
  ∃ l : Spelling, l.Valid ∧ l.text = cs

/-- The length without its sign's leading zeros. -/
def withoutZeros : List Char → List Char
  | '+' :: cs => '+' :: cs.dropWhile isZero
  | '-' :: cs => '-' :: cs.dropWhile isZero
  | cs => cs.dropWhile isZero

/-- Whether a length is zero: it has no other digit. -/
def isNought (cs : List Char) : Bool :=
  cs.all fun c => !c.isDigit || isZero c

/-- What two spellings of a length have in common: leading zeros and the way that zero is written
do not count. -/
def lengthKey (cs : List Char) : List Char :=
  if isNought cs then ['0'] else withoutZeros cs

theorem eq_zero_of_isZero {c : Char} (h : isZero c = true) : c = '0' :=
  eq_of_beq h

namespace Spelling

variable {l : Spelling} (hl : l.Valid) {rest : List Char} (hrest : StartsBlank rest)

section

include hl hrest

/-- What follows the number is neither a digit nor a point. -/
theorem Valid.head_unit : ∀ c ∈ (l.unit ++ rest).head?,
    isDigit c = false ∧ isZero c = false ∧ c ≠ '.' := by
  intro c hc
  rcases hl.unit with hunit | hunit | ⟨hunit, -, -⟩
  · rw [hunit] at hc
    cases hc
    decide
  · obtain ⟨hlength, halpha⟩ := hunit.spelled
    obtain ⟨a, more, hcons⟩ := List.exists_cons_of_length_pos (by omega : 0 < l.unit.length)
    rw [hcons] at hc
    cases hc
    have hc : c.isAlpha = true := halpha c (by simp [hcons])
    obtain ⟨-, hdigit, hdigit'⟩ := isBlank_of_isAlpha hc
    refine ⟨hdigit, ?_, ?_⟩
    · rw [Bool.eq_false_iff]
      intro hzero
      rw [eq_zero_of_isZero hzero] at hdigit'
      exact absurd hdigit' (by decide)
    · rintro rfl
      exact absurd hc (by decide)
  · rw [hunit, List.nil_append] at hc
    have hblank := hrest c hc
    obtain ⟨-, hdigit, -, hzero⟩ := isBlank_apart hblank
    refine ⟨hdigit, hzero, ?_⟩
    rintro rfl
    exact absurd hblank (by decide)

/-- What follows the digits in front of the point is no digit. -/
theorem Valid.head_fraction : ∀ c ∈ (l.fraction ++ (l.unit ++ rest)).head?,
    isDigit c = false ∧ isZero c = false := by
  intro c hc
  rcases hl.fraction with ⟨hfraction, -⟩ | ⟨digits, hfraction, -⟩
  · rw [hfraction] at hc
    exact ⟨(hl.head_unit hrest c hc).1, (hl.head_unit hrest c hc).2.1⟩
  · rw [hfraction] at hc
    cases hc
    decide

/-- The zeros at the start of a length: all digits in front of the point, or some of them and then
another digit. -/
theorem Valid.zeros : ((∀ c ∈ l.whole, isZero c = true) ∧
      (l.unsigned ++ rest).takeWhile isZero = l.whole ∧
      (l.unsigned ++ rest).drop l.whole.length = l.fraction ++ (l.unit ++ rest)) ∨
    (¬ (∀ c ∈ l.whole, isZero c = true) ∧ ∃ zeros digit after, isZero digit = false ∧
      digit.isDigit = true ∧ (l.unsigned ++ rest).takeWhile isZero = zeros ∧
      (l.unsigned ++ rest).drop zeros.length = digit :: after) := by
  have hsplit : l.unsigned ++ rest = l.whole ++ (l.fraction ++ (l.unit ++ rest)) := by
    simp [unsigned]
  by_cases hzero : ∀ c ∈ l.whole, isZero c = true
  · refine .inl ⟨hzero, ?_, ?_⟩
    · rw [hsplit]
      exact takeWhile_append_of_head hzero fun c hc => (hl.head_fraction hrest c hc).2
    · rw [hsplit, List.drop_left]
  · obtain ⟨zeros, digit, after, hwhole, hzeros, hdigit⟩ := exists_first_not hzero
    have hsplit' : l.unsigned ++ rest =
        zeros ++ digit :: (after ++ (l.fraction ++ (l.unit ++ rest))) := by
      rw [hsplit, hwhole]
      simp
    refine .inr ⟨hzero, zeros, digit, after ++ (l.fraction ++ (l.unit ++ rest)), hdigit,
      hl.whole digit (by rw [hwhole]; simp), ?_, ?_⟩
    · rw [hsplit']
      refine takeWhile_append_of_head hzeros ?_
      rintro c ⟨⟩
      exact hdigit
    · rw [hsplit', List.drop_left]

/-- A fraction is found when there are zeros and nothing else in front of its point. Without any
digit in front of the point nothing is found. -/
theorem Valid.zeroFraction?_eq : zeroFraction? (l.unsigned ++ rest) =
    if l.whole ≠ [] ∧ (∀ c ∈ l.whole, isZero c = true) ∧ l.fraction ≠ [] then
      some l.unsigned.length else none := by
  unfold zeroFraction?
  dsimp only
  rcases hl.zeros hrest with ⟨hzero, htake, hdrop⟩ | ⟨hzero, zeros, digit, after, -, hdigit, htake, hdrop⟩
  · rw [htake, hdrop]
    rcases hl.fraction with ⟨hfraction, -⟩ | ⟨digits, hfraction, hne, hdigits⟩
    · rw [hfraction, List.nil_append, if_neg (by simp)]
      split
      · next more hcons => exact absurd rfl (hl.head_unit hrest '.' (by rw [hcons]; rfl)).2.2
      · rfl
    · have hrun : (digits ++ (l.unit ++ rest)).takeWhile isDigit = digits :=
        takeWhile_append_of_head (fun c hc => (isWordChar_of_isDigit (hdigits c hc)).2.1)
          fun c hc => (hl.head_unit hrest c hc).1
      have hdigitsLength : digits.length ≠ 0 := by simpa using hne
      rw [hfraction, List.cons_append]
      simp only
      rw [hrun, List.drop_left]
      by_cases hwhole : l.whole = []
      · rw [if_pos (by simp [hwhole]), if_neg (by simp [hwhole])]
      · rw [if_neg (by simp [hwhole, hne]), if_pos ⟨hwhole, hzero, by simp⟩]
        rcases hl.unit with hunit | hunit | ⟨-, hnone, -⟩
        · simp [hunit, unsigned, hfraction]
          omega
        · split
          · next more hcons =>
            have hlength := hunit.spelled.1
            obtain ⟨a, unit, heq⟩ := List.exists_cons_of_length_pos (by omega : 0 < l.unit.length)
            rw [heq, List.cons_append] at hcons
            have ha := hunit.spelled.2 a (by rw [heq]; simp)
            rw [(List.cons.inj hcons).1] at ha
            exact absurd ha (by decide)
          · rw [wholeUnit?_append hunit hrest, Option.map_some]
            simp [unsigned, hfraction]
            omega
        · rw [hnone] at hfraction
          cases hfraction
  · rw [htake, hdrop, if_neg (by tauto)]
    split
    · next more hcons =>
      obtain rfl : digit = '.' := (List.cons.inj hcons).1
      exact absurd hdigit (by decide)
    · rfl

/-- A zero with a unit is found when the number has zeros only, no point, and a unit other than `%`.
-/
theorem Valid.zeroWithUnit?_eq : zeroWithUnit? (l.unsigned ++ rest) =
    if (∀ c ∈ l.whole, isZero c = true) ∧ l.fraction = [] ∧ IsUnit l.unit then
      some l.unsigned.length else none := by
  unfold zeroWithUnit?
  dsimp only
  rcases hl.zeros hrest with ⟨hzero, htake, hdrop⟩ | ⟨hzero, zeros, digit, after, -, hdigit, htake, hdrop⟩
  · rw [htake, hdrop]
    rcases hl.fraction with ⟨hfraction, hwhole⟩ | ⟨digits, hfraction, -⟩
    · have hlength : l.whole.length ≠ 0 := by simpa using hwhole
      rw [hfraction, List.nil_append, if_neg hlength]
      rcases hl.unit with hunit | hunit | ⟨hunit, -, -⟩
      · have hnot : ¬ IsUnit l.unit := by
          rw [hunit]
          decide
        rw [if_neg (by tauto), hunit, wholeUnit?_eq_none (by rintro c ⟨⟩; decide)]
        rfl
      · rw [if_pos ⟨hzero, rfl, hunit⟩, wholeUnit?_append hunit hrest]
        simp [unsigned, hfraction]
      · have hnot : ¬ IsUnit l.unit := by
          rw [hunit]
          decide
        rw [if_neg (by tauto), hunit, List.nil_append,
          wholeUnit?_eq_none fun c hc => (isBlank_apart (hrest c hc)).2.2.1]
        rfl
    · rw [hfraction, if_neg (by simp : ¬ ((∀ c ∈ l.whole, isZero c = true) ∧ _)), List.cons_append,
        wholeUnit?_eq_none (by rintro c ⟨⟩; decide)]
      split <;> rfl
  · have hnone : wholeUnit? (digit :: after) = none :=
      wholeUnit?_eq_none (by rintro c ⟨⟩; exact (isWordChar_of_isDigit hdigit).2.2.2)
    rw [htake, hdrop, if_neg (by tauto : ¬ ((∀ c ∈ l.whole, isZero c = true) ∧ _)), hnone]
    split <;> rfl

end

section

include hl

/-- Behind its sign a length starts with a digit or a point. -/
theorem Valid.unsigned_head : ∃ c cs, l.unsigned = c :: cs ∧ (c.isDigit = true ∨ c = '.') := by
  unfold unsigned
  cases hwhole : l.whole with
  | cons c cs => exact ⟨c, _, rfl, .inl (hl.whole c (by simp [hwhole]))⟩
  | nil =>
    rcases hl.fraction with ⟨-, hne⟩ | ⟨digits, hfraction, -⟩
    · exact absurd hwhole hne
    · rw [hfraction]
      exact ⟨'.', _, rfl, .inr rfl⟩

theorem Valid.unsigned_ne_nil : l.unsigned ≠ [] := by
  obtain ⟨c, cs, hcons, -⟩ := hl.unsigned_head
  simp [hcons]

/-- No character of a length but its sign and `%` has a match behind it. -/
theorem Valid.isLead_number : ∀ c ∈ l.whole ++ l.fraction, isLead '.' c = false := by
  have hdigit {c : Char} (h : c.isDigit = true) : isLead '.' c = false := by
    rw [isLead, (isWordChar_of_isDigit h).1]
    rfl
  intro c hc
  rcases List.mem_append.1 hc with hc | hc
  · exact hdigit (hl.whole c hc)
  · rcases hl.fraction with ⟨hfraction, -⟩ | ⟨digits, hfraction, -, hdigits⟩
    · rw [hfraction] at hc
      cases hc
    · rw [hfraction] at hc
      rcases List.mem_cons.1 hc with rfl | hc
      · rw [isLead, beq_self_eq_true, Bool.or_true]
        rfl
      · exact hdigit (hdigits c hc)

end

/-- One pass over a length. All that is asked of the pass is that it finds nothing where no zero
starts, and what it does with the length behind its sign. -/
theorem Valid.rewriteFrom_text {body : List Char → Option Nat} {image : List Char → List Char}
    (hl : l.Valid) (hrest : StartsBlank rest)
    (hbody : ∀ cs, (∀ c ∈ cs.head?, isZero c = false) → body cs = none) {out : List Char}
    (hout : (body (l.unsigned ++ rest) = some l.unsigned.length ∧ out = image l.unsigned) ∨
      (body (l.unsigned ++ rest) = none ∧ out = l.unsigned)) :
    rewriteFrom '.' body image true (l.text ++ rest) =
      l.sign ++ (out ++ rewriteFrom '.' body image true rest) := by
  have hnone : body rest = none := hbody rest fun c hc => (isBlank_apart (hrest c hc)).2.2.2
  have hunsigned : rewriteFrom '.' body image true (l.unsigned ++ rest) =
      out ++ rewriteFrom '.' body image true rest := by
    rw [rewriteFrom_of_none hnone true]
    rcases hout with ⟨hsome, rfl⟩ | ⟨hnone', rfl⟩
    · exact rewriteFrom_of_some hl.unsigned_ne_nil hsome
    · have hsplit : l.unsigned ++ rest = (l.whole ++ l.fraction) ++ (l.unit ++ rest) := by
        simp [unsigned]
      have hunit : rewriteFrom '.' body image false (l.unit ++ rest) =
          l.unit ++ rewriteFrom '.' body image false rest := by
        rcases hl.unit with hunit | hunit | ⟨hunit, -, -⟩
        · rw [hunit, List.singleton_append, rewriteFrom_false, rewriteFrom_of_none hnone]
          rfl
        · refine rewriteFrom_append (fun c hc => ?_) rest
          rw [isLead, isWordChar_of_isAlpha (hunit.spelled.2 c hc)]
          rfl
        · rw [hunit]
          rfl
      rw [rewriteFrom_of_none hnone', hsplit, rewriteFrom_append hl.isLead_number, hunit]
      simp [unsigned]
  have hlead {c : Char} (hc : c = '+' ∨ c = '-') : isLead '.' c = true ∧ isZero c = false := by
    rcases hc with rfl | rfl <;> decide
  have hsign {c : Char} (hc : c = '+' ∨ c = '-') :
      rewriteFrom '.' body image true (c :: (l.unsigned ++ rest)) =
        c :: (out ++ rewriteFrom '.' body image true rest) := by
    have hnone := hbody (c :: (l.unsigned ++ rest)) (by rintro d ⟨⟩; exact (hlead hc).2)
    rw [rewriteFrom_of_none hnone, rewriteFrom_false, (hlead hc).1, hunsigned]
  rcases hl.sign with heq | heq | heq
  · rw [text, heq]
    exact hunsigned
  · rw [text, heq]
    exact hsign (.inl rfl)
  · rw [text, heq]
    exact hsign (.inr rfl)

end Spelling

end Sheetsmith.Value
