import Sheetsmith.Proofs.Value.Lengths
import Sheetsmith.Proofs.Value.Sweeping

namespace Sheetsmith.Value

open Text

section

variable {c : Char}

theorem isIdle_of_not_ascii (h : 128 ≤ c.toNat) : IsIdle c := by
  have hne {d : Char} (hd : d.toNat < 128) : c ≠ d := by
    rintro rfl
    omega
  have hupper : c.isUpper = false := by
    rw [Bool.eq_false_iff, ne_eq, isUpper_iff]
    omega
  refine ⟨?_, hne (by decide), hne (by decide), hne (by decide), ?_⟩
  · rintro (hc | hc)
    · exact hne (by decide) hc
    · exact hne (by decide) hc
  · rw [toLower_of_isUpper_eq_false hupper]
    simp [hne (show 'u'.toNat < 128 by decide), hne (show 'r'.toNat < 128 by decide),
      hne (show 'l'.toNat < 128 by decide)]

theorem isIdle_of_isDigit (h : isDigit c = true) : IsIdle c := by
  by_cases hc : c.toNat < 128
  · exact forall_ascii (P := fun c => isDigit c = true → IsIdle c) (by decide) hc h
  · exact isIdle_of_not_ascii (by omega)

theorem isIdle_of_isZero (h : isZero c = true) : IsIdle c := by
  rw [eq_zero_of_isZero h]
  decide

/-- The letters of a unit are idle: none of them is among those that open a `url`. -/
theorem isIdle_of_isUnit {unit : List Char} (h : IsUnit unit) : ∀ c ∈ unit, IsIdle c := by
  intro c hc
  have hletters : ∀ word ∈ lengthUnits,
      (word.toList.all fun d => decide (d ∉ ['u', 'r', 'l'])) = true := by
    decide
  have halpha := h.spelled.2 c hc
  have hne {d : Char} (hd : d.isAlpha = false) : c ≠ d := by
    rintro rfl
    rw [halpha] at hd
    cases hd
  refine ⟨?_, hne (by decide), hne (by decide), hne (by decide), ?_⟩
  · rintro (hquote | hquote)
    · exact hne (by decide) hquote
    · exact hne (by decide) hquote
  · obtain ⟨word, hword, hfold⟩ := List.mem_map.1 h
    refine forall_mem_of_all (hletters word hword) _ ?_
    rw [hfold]
    exact List.mem_map_of_mem hc

end

theorem isIdle_of_unsigned? {cs : List Char} {n : Nat} (h : unsigned? cs = some n) :
    ∀ c ∈ cs.take n, IsIdle c := by
  have hdigits (cs : List Char) : ∀ c ∈ cs.takeWhile isDigit, IsIdle c := fun c hc =>
    isIdle_of_isDigit (List.all_eq_true.1 List.all_takeWhile c hc)
  have hwhole (h : (if (cs.takeWhile isDigit).length = 0 then none
      else some (cs.takeWhile isDigit).length) = some n) : ∀ c ∈ cs.take n, IsIdle c := by
    split at h
    · cases h
    · cases h
      rw [take_length_takeWhile]
      exact hdigits cs
  unfold unsigned? at h
  dsimp only at h
  rw [drop_length_takeWhile] at h
  split at h
  · next rest hrest =>
    split at h
    · exact hwhole h
    · cases h
      have htake : cs.take ((cs.takeWhile isDigit).length + 1 + (rest.takeWhile isDigit).length) =
          cs.takeWhile isDigit ++ '.' :: rest.takeWhile isDigit := by
        have hcs : cs.takeWhile isDigit ++ '.' :: rest = cs := by
          rw [← hrest, List.takeWhile_append_dropWhile]
        calc _ = (cs.takeWhile isDigit ++ '.' :: rest).take
              ((cs.takeWhile isDigit).length + 1 + (rest.takeWhile isDigit).length) := by rw [hcs]
          _ = _ := by
              rw [Nat.add_assoc, Nat.add_comm 1, List.take_length_add_append, List.take_succ_cons,
                take_length_takeWhile]
      rw [htake]
      exact List.forall_mem_append.2 ⟨hdigits cs, List.forall_mem_cons.2 ⟨by decide, hdigits rest⟩⟩
  · rw [if_pos rfl] at h
    exact hwhole h

/-- A length among the sides of a box is idle. -/
theorem isIdle_of_isLength {cs : List Char} (h : isLength cs = true) : ∀ c ∈ cs, IsIdle c := by
  unfold isLength at h
  rw [Bool.or_eq_true] at h
  rcases h with h | h
  · rw [eq_of_beq h]
    exact forall_mem_of_all (by decide)
  · split at h
    · next n hn =>
      dsimp only at h
      rw [Bool.or_eq_true] at h
      rw [← List.take_append_drop n cs]
      refine List.forall_mem_append.2 ⟨isIdle_of_unsigned? hn, ?_⟩
      rcases h with h | h
      · rw [eq_of_beq h]
        exact forall_mem_of_all (by decide)
      · obtain ⟨unit, rest, hcs, hunit, hlength⟩ := unit?_eq_some (eq_of_beq h)
        have hrest : rest = [] := by
          rw [hcs, List.length_append] at hlength
          exact List.length_eq_zero_iff.1 (by omega)
        rw [hcs, hrest, List.append_nil]
        exact isIdle_of_isUnit hunit
    · cases h

/-- A text of idle characters in the place of another one: neither has any verbatim text. -/
theorem spares_of_isIdle {old new : List Char} (hold : ∀ c ∈ old, IsIdle c)
    (hnew : ∀ c ∈ new, IsIdle c) : Spares old new := by
  have hpieces {cs : List Char} (h : ∀ c ∈ cs, IsIdle c) :
      pieces verbatim none cs = cs.map .plain ++ pieces verbatim none [] := by
    rw [← pieces_verbatim_append fun c hc => (h c hc).isQuiet, List.append_nil]
  refine ⟨?_, fun _ quote hquote hmem => ?_⟩
  · rw [verbatims_of_pieces_eq new (hpieces hnew), verbatims_of_pieces_eq old (hpieces hold)]
  · rw [hpieces hnew, pieces, List.append_nil] at hmem
    obtain ⟨c, hc, ⟨⟩⟩ := List.mem_map.1 hmem
    exact (hnew quote hc).quote hquote

end Sheetsmith.Value
