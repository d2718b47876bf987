import Sheetsmith.Proofs.Value.Respelling

namespace Sheetsmith.Value

open Text

/-- A match that starts with its zero has no lead. -/
theorem splitLead_of_isZero {c : Char} (hc : isZero c = true) (cs : List Char) :
    splitLead (c :: cs) = ([], c :: cs) := by
  rw [splitLead, if_pos hc]

/-- Any other first character of a match is its lead. -/
theorem splitLead_of_isZero_eq_false {c : Char} (hc : isZero c = false) (cs : List Char) :
    splitLead (c :: cs) = ([c], cs) := by
  rw [splitLead, if_neg (by rw [hc]; decide)]

theorem takeWhile_isZero_eq_nil {cs : List Char} (h : ∀ c ∈ cs.head?, isZero c = false) :
    cs.takeWhile isZero = [] := by
  cases cs with
  | nil => rfl
  | cons c cs => simp [h c rfl]

theorem zeroFraction?_eq_none {cs : List Char} (h : ∀ c ∈ cs.head?, isZero c = false) :
    zeroFraction? cs = none := by
  unfold zeroFraction?
  dsimp only
  rw [takeWhile_isZero_eq_nil h]
  split
  · rw [if_pos (.inl rfl)]
  · rfl

/-- Where no zero starts, no zero with a unit is found. -/
theorem zeroWithUnit?_eq_none {cs : List Char} (h : ∀ c ∈ cs.head?, isZero c = false) :
    zeroWithUnit? cs = none := by
  unfold zeroWithUnit?
  dsimp only
  rw [takeWhile_isZero_eq_nil h, if_pos List.length_nil]

namespace Spelling

variable {l : Spelling}

/-- In front of a fraction that is found there is a zero, and behind the zeros its point. The sign
is left to the caller. -/
theorem dropZeros_unsigned (hwhole : l.whole ≠ []) (hzero : ∀ c ∈ l.whole, isZero c = true)
    (hfraction : ∀ c ∈ (l.fraction ++ l.unit).head?, isZero c = false) :
    dropZeros l.unsigned = l.fraction ++ l.unit := by
  obtain ⟨z, zs, hcons⟩ := List.exists_cons_of_ne_nil hwhole
  have hsplit : splitLead l.unsigned = ([], l.unsigned) := by
    rw [unsigned, hcons]
    exact splitLead_of_isZero (hzero z (by simp [hcons])) _
  have hhead : (l.fraction ++ l.unit).dropWhile isZero = l.fraction ++ l.unit := by
    cases hcs : l.fraction ++ l.unit with
    | nil => rfl
    | cons c cs =>
      rw [hcs] at hfraction
      simp [hfraction c rfl]
  rw [dropZeros, hsplit]
  show l.unsigned.dropWhile isZero = _
  rw [unsigned, List.dropWhile_append_of_pos hzero, hhead]

theorem bareZero_unsigned (hwhole : l.whole ≠ []) (hzero : ∀ c ∈ l.whole, isZero c = true) :
    bareZero l.unsigned = ['0'] := by
  obtain ⟨z, zs, hcons⟩ := List.exists_cons_of_ne_nil hwhole
  rw [unsigned, hcons, List.cons_append, bareZero, splitLead_of_isZero (hzero z (by simp [hcons]))]
  rfl

end Spelling

/-- The pass over fractions takes the leading zeros off each length. -/
theorem respells_dropped : Respells zeroFraction? dropZeros Spelling.dropped where
  valid _ hl := hl.dropped
  sign l := by
    unfold Spelling.dropped
    split <;> rfl
  same _ hl := hl.lengthKey_dropped
  zero _ := zeroFraction?_eq_none
  unsigned l rest hl hrest := by
    rw [hl.zeroFraction?_eq hrest]
    unfold Spelling.dropped
    split
    · next hfound =>
      obtain ⟨hwhole, hzero, hfraction⟩ := hfound
      refine .inl ⟨rfl, ?_⟩
      have hhead := hl.head_fraction (show StartsBlank [] by rintro c ⟨⟩)
      rw [List.append_nil] at hhead
      rw [Spelling.dropZeros_unsigned hwhole hzero fun c hc => (hhead c hc).2]
      rfl
    · exact .inr ⟨rfl, rfl⟩

/-- The pass over zeros takes the unit off each length that is zero. -/
theorem respells_bared : Respells zeroWithUnit? bareZero Spelling.bared where
  valid _ hl := hl.bared
  sign l := by
    unfold Spelling.bared
    split <;> rfl
  same _ hl := hl.lengthKey_bared
  zero _ := zeroWithUnit?_eq_none
  unsigned l rest hl hrest := by
    rw [hl.zeroWithUnit?_eq hrest]
    unfold Spelling.bared
    split
    · next hfound =>
      obtain ⟨hzero, hfraction, -⟩ := hfound
      have hwhole : l.whole ≠ [] := by
        rcases hl.fraction with ⟨-, hwhole⟩ | ⟨digits, hpoint, -⟩
        · exact hwhole
        · rw [hfraction] at hpoint
          cases hpoint
      refine .inl ⟨rfl, ?_⟩
      rw [Spelling.bareZero_unsigned hwhole hzero, Spelling.unsigned, hfraction]
      rfl
    · exact .inr ⟨rfl, rfl⟩

theorem wholeUnit?_le {cs : List Char} {n : Nat} (h : wholeUnit? cs = some n) : n ≤ cs.length := by
  obtain ⟨unit, rest, rfl, -, rfl, -⟩ := wholeUnit?_eq_some_iff.1 h
  simp

theorem exists_zero_of_takeWhile {cs : List Char} (h : (cs.takeWhile isZero).length ≠ 0) :
    ∃ rest, cs = '0' :: rest := by
  cases cs with
  | nil => exact absurd rfl h
  | cons c cs =>
    by_cases hc : isZero c = true
    · exact ⟨cs, by rw [eq_zero_of_isZero hc]⟩
    · simp [hc] at h

/-- A match starts with a zero and does not reach past the end of the text. -/
theorem zeroFraction?_eq_some {cs : List Char} {n : Nat} (h : zeroFraction? cs = some n) :
    (∃ rest, cs = '0' :: rest) ∧ 0 < n ∧ n ≤ cs.length := by
  unfold zeroFraction? at h
  dsimp only at h
  split at h
  · next rest hdrop =>
    have hlength := congrArg List.length hdrop
    rw [List.length_drop, List.length_cons] at hlength
    split at h
    · cases h
    · next hnone =>
      rw [not_or] at hnone
      refine ⟨exists_zero_of_takeWhile hnone.1, ?_⟩
      split at h
      · next more hmore =>
        have hlength' := congrArg List.length hmore
        rw [List.length_drop, List.length_cons] at hlength'
        cases h
        omega
      · obtain ⟨m, hm, rfl⟩ := Option.map_eq_some_iff.1 h
        have hle := wholeUnit?_le hm
        have hdigits := (List.takeWhile_sublist isDigit (l := rest)).length_le
        rw [List.length_drop] at hle
        omega
  · cases h

/-- A match starts with a zero and does not reach past the end of the text. -/
theorem zeroWithUnit?_eq_some {cs : List Char} {n : Nat} (h : zeroWithUnit? cs = some n) :
    (∃ rest, cs = '0' :: rest) ∧ 0 < n ∧ n ≤ cs.length := by
  unfold zeroWithUnit? at h
  dsimp only at h
  split at h
  · cases h
  · next hzeros =>
    obtain ⟨m, hm, rfl⟩ := Option.map_eq_some_iff.1 h
    have hle := wholeUnit?_le hm
    have htake := (List.takeWhile_sublist isZero (l := cs)).length_le
    rw [List.length_drop] at hle
    exact ⟨exists_zero_of_takeWhile hzeros, by omega, by omega⟩

/-- A character that may stand in front of a match is no zero. -/
theorem isZero_of_isLead {c : Char} (h : isLead '.' c = true) : isZero c = false := by
  rw [Bool.eq_false_iff]
  intro hzero
  rw [eq_zero_of_isZero hzero] at h
  exact absurd h (by decide)

theorem exists_zero_of_append {word rest : List Char} (h : ∃ cs, word ++ rest = '0' :: cs)
    (hpos : 0 < word.length) : ∃ word', word = '0' :: word' := by
  obtain ⟨cs, hcs⟩ := h
  cases word with
  | nil => cases hpos
  | cons c word => exact ⟨word, by rw [(List.cons.inj hcs).1]⟩

/-- Replacing fractions by a pattern is a pass from left to right, in which a match may not start
inside a number. -/
theorem replaceAll_leadingZero (value : List Char) : replaceAll leadingZero dropZeros value =
    rewriteFrom '.' zeroFraction? dropZeros true value := by
  rw [leadingZero, replaceAll_afterBoundary]
  · exact fun cs n hmatch => (zeroFraction?_eq_some hmatch).2
  · intro c word rest hc hmatch
    obtain ⟨hzero, hpos, -⟩ := zeroFraction?_eq_some hmatch
    obtain ⟨word, rfl⟩ := exists_zero_of_append hzero hpos
    rw [dropZeros, dropZeros, splitLead_of_isZero_eq_false (isZero_of_isLead hc),
      splitLead_of_isZero rfl]
    rfl

/-- Replacing zeros with units by a pattern is such a pass too. -/
theorem replaceAll_zeroUnit (value : List Char) : replaceAll zeroUnit bareZero value =
    rewriteFrom '.' zeroWithUnit? bareZero true value := by
  rw [zeroUnit, replaceAll_afterBoundary]
  · exact fun cs n hmatch => (zeroWithUnit?_eq_some hmatch).2
  · intro c word rest hc hmatch
    obtain ⟨hzero, hpos, -⟩ := zeroWithUnit?_eq_some hmatch
    obtain ⟨word, rfl⟩ := exists_zero_of_append hzero hpos
    rw [bareZero, bareZero, splitLead_of_isZero_eq_false (isZero_of_isLead hc),
      splitLead_of_isZero rfl]
    rfl

/-- Lengths are shortened in two passes: leading zeros first, then units. Each goes over the whole
value once. -/
theorem shortenLengths_eq (value : List Char) :
    shortenLengths value = rewriteFrom '.' zeroWithUnit? bareZero true
      (rewriteFrom '.' zeroFraction? dropZeros true value) := by
  rw [shortenLengths, replaceAll_zeroUnit, replaceAll_leadingZero]

/-- Shortening the lengths of a value keeps them in place and keeps each of them. What is kept of
each is its key, which spellings of one length share. -/
theorem words_shortenLengths {value : List Char} (h : ∀ w ∈ words value, IsLength w) :
    (∀ w ∈ words (shortenLengths value), IsLength w) ∧
      (words (shortenLengths value)).map lengthKey = (words value).map lengthKey := by
  obtain ⟨hdropped, hkeys⟩ := respells_dropped.words_rewriteFrom h
  obtain ⟨hbared, hkeys'⟩ := respells_bared.words_rewriteFrom hdropped
  rw [shortenLengths_eq]
  exact ⟨hbared, hkeys'.trans hkeys⟩

end Sheetsmith.Value
