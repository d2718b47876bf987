import Sheetsmith.Text.Pattern

namespace Sheetsmith.Text

/-- A spelling that stands in a text is found there, wherever it stands. The empty spelling is left
out, since it is never reported as a match. -/
theorem occurs_literal {word cs : List Char} (hword : word ≠ []) (h : word <:+: cs) :
    occurs (literal word) cs = true := by
  rw [occurs]
  generalize (none : Option Char) = before
  induction before, cs using pieces.induct (literal word) with
  | case1 before => exact absurd (List.infix_nil.1 h) hword
  | case2 before c rest n hn ih => rw [pieces, hn, List.any_cons, Bool.true_or]
  | case3 before c rest hn ih =>
    have hrest : word <:+: rest := by
      rcases List.infix_cons_iff.1 h with hstart | hrest
      · obtain ⟨n, hlength⟩ := Nat.exists_eq_succ_of_ne_zero (mt List.length_eq_zero_iff.1 hword)
        refine absurd ?_ (hn n)
        rw [literal, if_pos (List.isPrefixOf_iff_prefix.2 hstart), hlength]
      · exact hrest
    rw [pieces]
    split
    · next n hsome => exact absurd hsome (hn n)
    · rw [List.any_cons, Bool.false_or, ih hrest]

/-- What is found stands in the text. Nothing is assumed about the spelling here. -/
theorem isInfix_of_occurs_literal {word cs : List Char} (h : occurs (literal word) cs = true) :
    word <:+: cs := by
  rw [occurs] at h
  generalize (none : Option Char) = before at h
  induction before, cs using pieces.induct (literal word) with
  | case1 before => simp [pieces] at h
  | case2 before c rest n hn ih =>
    rw [literal] at hn
    split at hn
    · next hstart => exact (List.isPrefixOf_iff_prefix.1 hstart).isInfix
    · cases hn
  | case3 before c rest hn ih =>
    rw [pieces] at h
    split at h
    · next n hsome => exact absurd hsome (hn n)
    · rw [List.any_cons, Bool.false_or] at h
      exact List.infix_cons (ih h)

end Sheetsmith.Text
