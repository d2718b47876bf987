import Sheetsmith.Proofs.Text.Ascii
import Sheetsmith.Proofs.Text.Trim
import Sheetsmith.Value.Basic

namespace Sheetsmith.Value

open Text

/-- What all characters of a text are is found out by a look at these characters and no others. -/
instance decidableForallMem (p : Char → Bool) (cs : List Char) :
    Decidable (∀ c ∈ cs, p c = true) :=
  List.decidableBAll (fun c => p c = true) cs

/-- A unit of length other than `%`, in letters of any case. -/
def IsUnit (unit : List Char) : Prop :=
  fold unit ∈ lengthUnits.map String.toList

instance (unit : List Char) : Decidable (IsUnit unit) :=
  inferInstanceAs (Decidable (fold unit ∈ lengthUnits.map String.toList))

/-- All units other than `%` are two letters in lower case. -/
theorem lengthUnits_spelled : ∀ unit ∈ lengthUnits, unit.length = 2 ∧ unit.toList.length = 2 ∧
    fold unit.toList = unit.toList ∧ unit.toList.all Char.isAlpha = true := by
  decide

theorem IsUnit.spelled {unit : List Char} (h : IsUnit unit) :
    unit.length = 2 ∧ ∀ c ∈ unit, c.isAlpha = true := by
  obtain ⟨word, hword, hfold⟩ := List.mem_map.1 h
  obtain ⟨-, hlength, -, halpha⟩ := lengthUnits_spelled word hword
  rw [hfold, fold] at hlength halpha
  rw [List.length_map] at hlength
  exact ⟨hlength, fun c hc =>
    isAlpha_of_toLower (List.all_eq_true.1 halpha _ (List.mem_map_of_mem hc))⟩

theorem unit?_append {unit : List Char} (h : IsUnit unit) (rest : List Char) :
    unit? (unit ++ rest) = some unit.length := by
  have hlength := h.spelled.1
  obtain ⟨word, hword, hfold⟩ := List.mem_map.1 h
  have hstarts : startsWithFold word.toList (unit ++ rest) = true := by
    obtain ⟨-, hlen, hsame, -⟩ := lengthUnits_spelled word hword
    rw [startsWithFold, hsame, hlen, ← hlength, List.take_left, hfold]
    exact beq_self_eq_true _
  obtain ⟨found, hfound⟩ := Option.isSome_iff_exists.1 (List.find?_isSome.2
    ⟨word, hword, hstarts⟩ : (lengthUnits.find? fun unit' =>
      startsWithFold unit'.toList (unit ++ rest)).isSome)
  rw [unit?, hfound, Option.map_some, (lengthUnits_spelled found (List.mem_of_find?_eq_some hfound)).1,
    hlength]

/-- What is found is a unit, in letters of any case. -/
theorem unit?_eq_some {cs : List Char} {n : Nat} (h : unit? cs = some n) :
    ∃ unit rest, cs = unit ++ rest ∧ IsUnit unit ∧ n = unit.length := by
  obtain ⟨word, hword, rfl⟩ := Option.map_eq_some_iff.1 h
  have hmem := List.mem_of_find?_eq_some hword
  obtain ⟨hlength, hlen, hsame, -⟩ := lengthUnits_spelled word hmem
  have hstarts := List.find?_some hword
  rw [startsWithFold, hsame, hlen] at hstarts
  have hfold : word.toList = fold (cs.take 2) := eq_of_beq hstarts
  have htake := congrArg List.length hfold
  rw [hlen, fold, List.length_map] at htake
  exact ⟨cs.take 2, cs.drop 2, (List.take_append_drop 2 cs).symm,
    List.mem_map.2 ⟨word, hmem, hfold⟩, hlength.trans htake⟩

/-- No unit starts with anything but a letter. -/
theorem unit?_eq_none {cs : List Char} (h : ∀ c ∈ cs.head?, c.isAlpha = false) :
    unit? cs = none := by
  rw [unit?, Option.map_eq_none_iff, List.find?_eq_none]
  intro word hword hstarts
  obtain ⟨-, hlen, hsame, halpha⟩ := lengthUnits_spelled word hword
  rw [startsWithFold, hsame, hlen] at hstarts
  have hfold := eq_of_beq hstarts
  cases cs with
  | nil => simp [hfold, fold] at hlen
  | cons c cs =>
    have hc := List.all_eq_true.1 halpha c.toLower (by rw [hfold]; simp [fold])
    have := isAlpha_of_toLower hc
    rw [h c rfl] at this
    cases this

section

theorem isWordChar_of_isDigit {c : Char} (h : c.isDigit = true) :
    isWordChar c = true ∧ isDigit c = true ∧ isBlank c = false ∧ c.isAlpha = false := by
  have hc : c.toNat < 128 := by
    rw [isDigit_iff] at h
    omega
  revert h
  exact forall_ascii (P := fun c => c.isDigit = true → isWordChar c = true ∧ isDigit c = true ∧
    isBlank c = false ∧ c.isAlpha = false) (by decide) hc

theorem isBlank_of_isAlpha {c : Char} (h : c.isAlpha = true) :
    isBlank c = false ∧ isDigit c = false ∧ c.isDigit = false := by
  have hc : c.toNat < 128 := by
    rw [isAlpha_iff, isUpper_iff, isLower_iff] at h
    omega
  revert h
  exact forall_ascii (P := fun c => c.isAlpha = true → isBlank c = false ∧ isDigit c = false ∧
    c.isDigit = false) (by decide) hc

/-- The code points of the blanks. -/
def blankCodes : List Nat :=
  [0x09, 0x0A, 0x0B, 0x0C, 0x0D, 0x20, 0x85, 0xA0, 0x1680, 0x2000, 0x2001, 0x2002, 0x2003, 0x2004,
    0x2005, 0x2006, 0x2007, 0x2008, 0x2009, 0x200A, 0x2028, 0x2029, 0x202F, 0x205F, 0x3000]

theorem toNat_mem_blankCodes {c : Char} (h : isBlank c = true) : c.toNat ∈ blankCodes := by
  simp only [isBlank, Bool.or_eq_true, Bool.and_eq_true, decide_eq_true_eq, beq_iff_eq] at h
  simp only [blankCodes, List.mem_cons, List.not_mem_nil, or_false]
  omega

/-- None of the blanks is a word character, a digit or a letter. This is checked of each one. -/
theorem blankCodes_apart : ∀ n ∈ blankCodes, isWordChar (Char.ofNat n) = false ∧
    isDigit (Char.ofNat n) = false ∧ (Char.ofNat n).isAlpha = false ∧
      isZero (Char.ofNat n) = false := by
  decide +kernel

/-- A blank is no part of a word. -/
theorem isBlank_apart {c : Char} (h : isBlank c = true) :
    isWordChar c = false ∧ isDigit c = false ∧ c.isAlpha = false ∧ isZero c = false := by
  have hcode := blankCodes_apart c.toNat (toNat_mem_blankCodes h)
  rwa [Char.ofNat_toNat] at hcode

/-- A text that is empty or starts with a blank. -/
def StartsBlank (cs : List Char) : Prop :=
  ∀ c ∈ cs.head?, isBlank c = true

theorem wordEnds_of_startsBlank {cs : List Char} (h : StartsBlank cs) : wordEnds cs = true := by
  cases cs with
  | nil => rfl
  | cons c cs => simp [wordEnds, (isBlank_apart (h c rfl)).1]

/-- What is taken from the front of a text, where it is known what follows. The text behind may also
be empty. -/
theorem takeWhile_append_of_head {p : Char → Bool} {front back : List Char}
    (hfront : ∀ c ∈ front, p c = true) (hback : ∀ c ∈ back.head?, p c = false) :
    (front ++ back).takeWhile p = front := by
  rw [List.takeWhile_append_of_pos hfront]
  cases back with
  | nil => simp
  | cons c back => simp [hback c rfl]

/-- A text that is not all of one class can be cut at the first character outside of it. -/
theorem exists_first_not {p : Char → Bool} {cs : List Char} (h : ¬ ∀ c ∈ cs, p c = true) :
    ∃ front c back, cs = front ++ c :: back ∧ (∀ d ∈ front, p d = true) ∧ p c = false := by
  induction cs with
  | nil => exact absurd (by simp) h
  | cons c cs ih =>
    by_cases hc : p c = true
    · obtain ⟨front, d, back, hcs, hfront, hd⟩ := ih fun hall => h (by simpa [hc] using hall)
      exact ⟨c :: front, d, back, by rw [hcs]; rfl, by simpa [hc] using hfront, hd⟩
    · exact ⟨[], c, cs, rfl, by simp, by simpa using hc⟩

/-- A whole unit is one behind which the word ends. -/
theorem wholeUnit?_eq_some_iff {cs : List Char} {n : Nat} : wholeUnit? cs = some n ↔
    ∃ unit rest, cs = unit ++ rest ∧ IsUnit unit ∧ n = unit.length ∧ wordEnds rest = true := by
  rw [wholeUnit?, Option.filter_eq_some_iff]
  constructor
  · rintro ⟨hunit, hends⟩
    obtain ⟨unit, rest, rfl, hspelled, rfl⟩ := unit?_eq_some hunit
    rw [List.drop_left] at hends
    exact ⟨unit, rest, rfl, hspelled, rfl, hends⟩
  · rintro ⟨unit, rest, rfl, hspelled, rfl, hends⟩
    refine ⟨unit?_append hspelled rest, ?_⟩
    rw [List.drop_left]
    exact hends

/-- In front of a blank or of the end each unit is a whole one. -/
theorem wholeUnit?_append {unit rest : List Char} (h : IsUnit unit) (hrest : StartsBlank rest) :
    wholeUnit? (unit ++ rest) = some unit.length :=
  wholeUnit?_eq_some_iff.2 ⟨unit, rest, rfl, h, rfl, wordEnds_of_startsBlank hrest⟩

theorem wholeUnit?_eq_none {cs : List Char} (h : ∀ c ∈ cs.head?, c.isAlpha = false) :
    wholeUnit? cs = none := by
  rw [wholeUnit?, unit?_eq_none h]
  rfl

end

end Sheetsmith.Value
