import Sheetsmith.Proofs.Value.Lengths

namespace Sheetsmith.Value

open Text

namespace Spelling

variable {l : Spelling}

/-- The length without the zeros in front of its point. -/
def dropped (l : Spelling) : Spelling :=
  if l.whole ≠ [] ∧ (∀ c ∈ l.whole, isZero c = true) ∧ l.fraction ≠ [] then { l with whole := [] }
  else l

/-- The length with one zero for its number, and without its unit, if it is zero and has no point. -/
def bared (l : Spelling) : Spelling :=
  if (∀ c ∈ l.whole, isZero c = true) ∧ l.fraction = [] ∧ IsUnit l.unit then
    { l with whole := ['0'], unit := [] }
  else l

/-- A length without its leading zeros is spelled as a length: its fraction has digits. -/
theorem Valid.dropped (hl : l.Valid) : l.dropped.Valid := by
  unfold Spelling.dropped
  split
  · next h =>
    rcases hl.fraction with ⟨hfraction, -⟩ | hfraction
    · exact absurd hfraction h.2.2
    · refine ⟨hl.sign, by simp, .inr hfraction, ?_⟩
      rcases hl.unit with hunit | hunit | ⟨-, hnone, -⟩
      · exact .inl hunit
      · exact .inr (.inl hunit)
      · exact absurd hnone h.2.2
  · exact hl

/-- A zero without its unit is spelled as a length. -/
theorem Valid.bared (hl : l.Valid) : l.bared.Valid := by
  unfold Spelling.bared
  split
  · next h => exact ⟨hl.sign, by simp, .inl ⟨h.2.1, by simp⟩, .inr (.inr ⟨rfl, h.2.1, rfl⟩)⟩
  · exact hl

/-- The parts of a text that may be a length. -/
def ofText (cs : List Char) : Spelling :=
  let sign := cs.takeWhile fun c => c == '+' || c == '-'
  let number := cs.drop sign.length
  let whole := number.takeWhile Char.isDigit
  let behind := number.drop whole.length
  let fraction := match behind with
    | '.' :: more => '.' :: more.takeWhile Char.isDigit
    | _ => []
  ⟨sign, whole, fraction, behind.drop fraction.length⟩

/-- A length can be spelled in one way only, so its parts can be read off its text. -/
theorem Valid.ofText_text (hl : l.Valid) : ofText l.text = l := by
  have hend : StartsBlank [] := by rintro c ⟨⟩
  have hdigit {c : Char} (h : isDigit c = false) : c.isDigit = false := by
    rw [Bool.eq_false_iff]
    intro hc
    rw [(isWordChar_of_isDigit hc).2.1] at h
    cases h
  have hunit : ∀ c ∈ l.unit.head?, c.isDigit = false ∧ c ≠ '.' := fun c hc => by
    obtain ⟨hc', -, hpoint⟩ := hl.head_unit hend c (by rwa [List.append_nil])
    exact ⟨hdigit hc', hpoint⟩
  have hfraction : ∀ c ∈ (l.fraction ++ l.unit).head?, c.isDigit = false := fun c hc =>
    hdigit (hl.head_fraction hend c (by rwa [List.append_nil])).1
  have hsign : l.text.takeWhile (fun c => c == '+' || c == '-') = l.sign := by
    refine takeWhile_append_of_head ?_ ?_
    · rcases hl.sign with hsign | hsign | hsign <;> rw [hsign] <;> exact forall_mem_of_all (by decide)
    · obtain ⟨c, cs, hcons, hc⟩ := hl.unsigned_head
      rw [hcons]
      rintro d ⟨⟩
      rcases hc with hc | rfl
      · rw [Bool.eq_false_iff]
        simp only [ne_eq, Bool.or_eq_true, beq_iff_eq]
        rintro (rfl | rfl) <;> exact absurd hc (by decide)
      · decide
  have hnumber : l.text.drop l.sign.length = l.whole ++ (l.fraction ++ l.unit) := by
    rw [text, List.drop_left]
    rfl
  have hwhole : (l.whole ++ (l.fraction ++ l.unit)).takeWhile Char.isDigit = l.whole :=
    takeWhile_append_of_head hl.whole hfraction
  have hmore : (match l.fraction ++ l.unit with
      | '.' :: more => '.' :: more.takeWhile Char.isDigit
      | _ => []) = l.fraction := by
    rcases hl.fraction with ⟨hnone, -⟩ | ⟨digits, hsome, -, hdigits⟩
    · rw [hnone, List.nil_append]
      split
      · next more heq => exact absurd rfl (hunit '.' (by rw [heq]; rfl)).2
      · rfl
    · rw [hsome, List.cons_append]
      simp only
      rw [takeWhile_append_of_head hdigits fun c hc => (hunit c hc).1]
  unfold ofText
  dsimp only
  rw [hsign, hnumber, hwhole, List.drop_left, hmore, List.drop_left]

instance : DecidablePred Valid := fun l =>
  decidable_of_iff ((l.sign = [] ∨ l.sign = ['+'] ∨ l.sign = ['-']) ∧
      l.whole.all Char.isDigit = true ∧
      ((l.fraction = [] ∧ l.whole ≠ []) ∨ (l.fraction.head? = some '.' ∧ l.fraction.tail ≠ [] ∧
        l.fraction.tail.all Char.isDigit = true)) ∧
      (l.unit = ['%'] ∨ IsUnit l.unit ∨ (l.unit = [] ∧ l.fraction = [] ∧ l.whole = ['0']))) <| by
    have hfraction : (∃ digits, l.fraction = '.' :: digits ∧ digits ≠ [] ∧
        ∀ c ∈ digits, c.isDigit = true) ↔ (l.fraction.head? = some '.' ∧ l.fraction.tail ≠ [] ∧
          l.fraction.tail.all Char.isDigit = true) := by
      cases l.fraction <;> simp
    exact ⟨fun h => ⟨h.1, List.all_eq_true.1 h.2.1, h.2.2.1.imp_right hfraction.2, h.2.2.2⟩,
      fun h => ⟨h.sign, List.all_eq_true.2 h.whole, h.fraction.imp_right hfraction.1, h.unit⟩⟩

end Spelling

instance : DecidablePred IsLength := fun cs =>
  decidable_of_iff ((Spelling.ofText cs).Valid ∧ (Spelling.ofText cs).text = cs)
    ⟨fun h => ⟨_, h.1, h.2⟩, by rintro ⟨l, hl, rfl⟩; rw [hl.ofText_text]; exact ⟨hl, rfl⟩⟩

end Sheetsmith.Value
