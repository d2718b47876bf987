import Sheetsmith.Text.Pattern

namespace Sheetsmith.Text

/-- A match stands somewhere in the text, where its recognizer has found it behind some character,
and it is not empty. What the character in front of it is depends on the matches before. -/
theorem exists_of_mem_pieces {recognize : Recognizer} {before : Option Char}
    {cs text : List Char} (h : .hit text ∈ pieces recognize before cs) :
    ∃ front before c rest n, cs = front ++ c :: rest ∧
      recognize before (c :: rest) = some (n + 1) ∧ text = c :: rest.take n := by
  induction before, cs using pieces.induct recognize with
  | case1 before => simp [pieces] at h
  | case2 before c rest n hn ih =>
    rw [pieces, hn] at h
    rcases List.mem_cons.1 h with h | h
    · cases h
      exact ⟨[], before, c, rest, n, rfl, hn, rfl⟩
    · obtain ⟨front, before', c', rest', n', hrest, hplace⟩ := ih h
      refine ⟨c :: rest.take n ++ front, before', c', rest', n', ?_, hplace⟩
      rw [List.append_assoc, ← hrest, List.cons_append, List.take_append_drop]
  | case3 before c rest hn ih =>
    rw [pieces] at h
    split at h
    · next n hsome => exact absurd hsome (hn n)
    · rcases List.mem_cons.1 h with h | h
      · cases h
      · obtain ⟨front, before', c', rest', n', hrest, hplace⟩ := ih h
        exact ⟨c :: front, before', c', rest', n', by rw [hrest, List.cons_append], hplace⟩

/-- Each match that is listed stands somewhere in the text, where its recognizer has found it, and
it is not empty. -/
theorem exists_of_mem_findAll {recognize : Recognizer} {cs text : List Char}
    (h : text ∈ findAll recognize cs) :
    ∃ front before c rest n, cs = front ++ c :: rest ∧
      recognize before (c :: rest) = some (n + 1) ∧ text = c :: rest.take n := by
  obtain ⟨piece, hpiece, htext⟩ := List.mem_filterMap.1 h
  cases piece with
  | plain c => cases htext
  | hit hit =>
    cases htext
    exact exists_of_mem_pieces hpiece

/-- The replacement of the matches behind a place of a text. -/
def replaced (recognize : Recognizer) (image : List Char → List Char) (before : Option Char)
    (cs : List Char) : List Char :=
  (pieces recognize before cs).flatMap fun
    | .plain c => [c]
    | .hit text => image text

section

variable {recognize : Recognizer} {image : List Char → List Char}

/-- Where a match starts, its image is written, and the search goes on behind it, with the last
character of the match in front. -/
theorem replaced_of_some {before : Option Char} {c : Char} {rest : List Char} {n : Nat}
    (h : recognize before (c :: rest) = some (n + 1)) :
    replaced recognize image before (c :: rest) = image (c :: rest.take n) ++
      replaced recognize image (c :: rest.take n).getLast? (rest.drop n) := by
  rw [replaced, pieces, h]
  rfl

/-- Where no match starts, the character is kept and the search goes on behind it. A match of length
zero counts as none. -/
theorem replaced_of_not_some {before : Option Char} {c : Char} {rest : List Char}
    (h : ∀ n, recognize before (c :: rest) = some (n + 1) → False) :
    replaced recognize image before (c :: rest) =
      c :: replaced recognize image (some c) rest := by
  rw [replaced, pieces]
  split
  · next n hn => exact absurd hn (h n)
  · rfl

end

theorem not_mem_takeWhile {p : Char → Bool} {c : Char} (h : p c = false) (cs : List Char) :
    c ∉ cs.takeWhile p := by
  intro hmem
  have hc := List.all_eq_true.1 List.all_takeWhile c hmem
  rw [h] at hc
  cases hc

theorem take_length_takeWhile (p : Char → Bool) (cs : List Char) :
    cs.take (cs.takeWhile p).length = cs.takeWhile p :=
  (List.prefix_iff_eq_take.1 (List.takeWhile_prefix p)).symm

theorem drop_length_takeWhile (p : Char → Bool) (cs : List Char) :
    cs.drop (cs.takeWhile p).length = cs.dropWhile p := by
  rw [List.dropWhile_eq_drop_findIdx_not, List.takeWhile_eq_take_findIdx_not]
  simp

end Sheetsmith.Text
