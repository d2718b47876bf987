import Sheetsmith.Proofs.Vendor.Calls

namespace Sheetsmith

namespace Gradient

open Text

theorem toUpper_of_isLower_eq_false {c : Char} (h : c.isLower = false) : c.toUpper = c := by
  unfold Char.toUpper
  split
  · next hrange =>
    have hlower : c.isLower = true := by
      unfold Char.isLower
      simpa using hrange
    rw [hlower] at h
    cases h
  · rfl

theorem eq_hyphen_of_case {c : Char} (h : c.toLower = '-' ∨ c.toUpper = '-') : c = '-' := by
  have hletters : ∀ n < 123, 65 ≤ n →
      (Char.ofNat n).toLower ≠ '-' ∧ (Char.ofNat n).toUpper ≠ '-' := by decide
  have hletter (hc : 65 ≤ c.toNat ∧ c.toNat < 123) : c.toLower ≠ '-' ∧ c.toUpper ≠ '-' := by
    have hne := hletters c.toNat hc.2 hc.1
    rwa [Char.ofNat_toNat] at hne
  rcases h with h | h
  · cases hupper : c.isUpper with
    | false => rwa [toLower_of_isUpper_eq_false hupper] at h
    | true =>
      have hc := isUpper_iff.1 hupper
      exact absurd h (hletter (by omega)).1
  · cases hlower : c.isLower with
    | false => rwa [toUpper_of_isLower_eq_false hlower] at h
    | true =>
      have hc := isLower_iff.1 hlower
      exact absurd h (hletter (by omega)).2

theorem hyphen_not_mem_take_unit {cs : List Char} {n : Nat} (h : Value.unit? cs = some n) :
    '-' ∉ cs.take n := by
  obtain ⟨unit, hfind, rfl⟩ := Option.map_eq_some_iff.1 h
  have hstarts := List.find?_some hfind
  have hunit := List.mem_of_find?_eq_some hfind
  have hplain : ∀ unit ∈ Value.lengthUnits, '-' ∉ fold unit.toList := by decide
  intro hmem
  rw [startsWithFold, beq_iff_eq, String.length_toList] at hstarts
  refine hplain unit hunit ?_
  rw [hstarts]
  exact List.mem_map.2 ⟨'-', hmem, rfl⟩

/-- There is no hyphen in the position of a colour stop. -/
theorem hyphen_not_mem_take_stopPosition {cs : List Char} {n : Nat}
    (h : stopPosition? cs = some n) : '-' ∉ cs.take n := by
  unfold stopPosition? at h
  dsimp only at h
  have hfront : '-' ∉ cs.take ((cs.takeWhile isBlank).length +
      ((cs.drop (cs.takeWhile isBlank).length).takeWhile isDigit).length) := by
    rw [List.take_add, take_length_takeWhile, take_length_takeWhile, List.mem_append]
    exact not_or.2 ⟨not_mem_takeWhile (by decide) _, not_mem_takeWhile (by decide) _⟩
  split at h
  · cases h
  · generalize (cs.takeWhile isBlank).length +
      ((cs.drop (cs.takeWhile isBlank).length).takeWhile isDigit).length = front at h hfront
    have hback (k : Nat) (hk : '-' ∉ (cs.drop front).take k) : '-' ∉ cs.take (front + k) := by
      rw [List.take_add, List.mem_append]
      exact not_or.2 ⟨hfront, hk⟩
    split at h
    · next after hrest =>
      cases h
      exact hback 1 (by simp [hrest])
    · cases h
      cases hunit : Value.unit? (cs.drop front) with
      | none => exact hback 0 (by simp)
      | some k => exact hback k (hyphen_not_mem_take_unit hunit)

theorem functionColor?_hash (rest : List Char) : functionColor? ('#' :: rest) = none := by
  unfold functionColor?
  split
  · next c d e after heq =>
    obtain rfl : c = '#' := (List.cons.inj heq).1.symm
    have hmodel (x : Char) (hx : x = 'r' ∨ x = 'h') : plainLetter '#' ≠ x := by
      rcases hx with rfl | rfl <;> decide
    rw [if_neg]
    rintro (hrgb | hhsl)
    · exact hmodel 'r' (.inl rfl) (List.cons.inj hrgb).1
    · exact hmodel 'h' (.inr rfl) (List.cons.inj hhsl).1
  · rfl

theorem wordColor?_hash (rest : List Char) : wordColor? ('#' :: rest) = none := by
  have hhash : isWordChar '#' = false := by decide
  simp [wordColor?, hhash]

/-- A positioned colour that starts with `#` is hexadecimal, so it has no hyphen. -/
theorem hyphen_not_mem_take_colorStop {before : Option Char} {rest : List Char} {n : Nat}
    (h : colorStop before ('#' :: rest) = some n) : '-' ∉ ('#' :: rest).take n := by
  have hhex : ∃ k, hexColor? ('#' :: rest) = some k ∧
      ∃ m, stopPosition? (('#' :: rest).drop k) = some m ∧ k + m = n := by
    simpa [colorStop, functionColor?_hash, wordColor?_hash, Option.bind_eq_some_iff] using h
  obtain ⟨k, hhex, m, hstop, rfl⟩ := hhex
  rw [hexColor?] at hhex
  split at hhex
  · cases hhex
  · cases hhex
    rw [List.take_add, List.mem_append, List.take_succ_cons, take_length_takeWhile, List.mem_cons]
    refine not_or.2 ⟨not_or.2 ⟨by decide, ?_⟩, hyphen_not_mem_take_stopPosition hstop⟩
    exact not_mem_takeWhile (by decide) _

/-- The colour of a stop is what the stop starts with. -/
theorem stopColor_prefix (hit : List Char) : stopColor hit <+: hit := by
  rw [stopColor, ← List.reverse_suffix, List.reverse_reverse]
  exact (List.dropWhile_suffix _).trans (List.dropWhile_suffix _)

/-- There is no hyphen in the colours of stops that start with `#`. Colours that are words may have
one. -/
theorem hyphen_not_mem_stopColor {value : List Char} {color : List Char}
    (hmem : color ∈ (findAll colorStop value).map stopColor) (hhead : color.head? = some '#') :
    '-' ∉ color := by
  obtain ⟨hit, hhit, rfl⟩ := List.mem_map.1 hmem
  obtain ⟨-, before, c, rest, n, -, hstop, rfl⟩ := exists_of_mem_findAll hhit
  have hfront := stopColor_prefix (c :: rest.take n)
  obtain rfl : c = '#' := by
    obtain ⟨tail, htail⟩ := List.head?_eq_some_iff.1 hhead
    rw [htail, List.cons_prefix_cons] at hfront
    exact hfront.1.symm
  exact fun h => hyphen_not_mem_take_colorStop hstop (hfront.subset h)

/-- Writing a colour for a filter brings in no hyphen. -/
theorem hyphen_not_mem_filterColor {color : List Char} (h : '-' ∉ color) :
    '-' ∉ filterColor color := by
  intro hmem
  rw [filterColor, List.mem_map] at hmem
  obtain ⟨c, hc, hupper⟩ := hmem
  obtain rfl := eq_hyphen_of_case (.inr hupper)
  have hdrop : '-' ∉ color.drop 1 := fun hdrop => h (List.mem_of_mem_drop hdrop)
  split at hc
  · next r g b heq =>
    rw [heq] at hdrop
    simp only [List.mem_cons, List.not_mem_nil, or_false] at hc hdrop
    grind
  · split at hc
    · simp only [List.cons_append, List.nil_append, List.mem_cons] at hc
      grind
    · exact h hc

/-- The filter that draws a gradient is spelled without hyphens, whatever the gradient is. -/
theorem hyphen_not_mem_filter {value text : String} (h : filter? value = some text) :
    '-' ∉ text.toList := by
  simp only [filter?, Option.bind_eq_bind, Option.bind_eq_some_iff] at h
  obtain ⟨first, hfirst, last, hlast, h⟩ := h
  split at h
  · next hhash =>
    cases h
    have hfirst := hyphen_not_mem_filterColor
      (hyphen_not_mem_stopColor (List.mem_of_head? hfirst) hhash.1)
    have hlast := hyphen_not_mem_filterColor
      (hyphen_not_mem_stopColor (List.mem_of_getLast? hlast) hhash.2)
    have hdirection (b : Bool) : '-' ∉ (if b then "1" else "0").toList := by
      cases b <;> decide
    simp only [String.toList_append, String.toList_ofList, List.mem_append, not_or]
    refine ⟨⟨⟨⟨⟨⟨?_, hfirst⟩, ?_⟩, hlast⟩, ?_⟩, hdirection _⟩, ?_⟩
    all_goals decide
  · cases h

end Gradient

end Sheetsmith
