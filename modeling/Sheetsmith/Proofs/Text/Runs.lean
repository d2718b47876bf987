import Sheetsmith.Proofs.Text.Pieces

namespace Sheetsmith.Text

section

variable {p : Char → Bool}

/-- Where a run starts does not depend on what stands in front of it, so the pieces of a text are
the same behind any character. -/
theorem pieces_run_eq (before before' : Option Char) (cs : List Char) :
    pieces (run p) before cs = pieces (run p) before' cs := by
  cases cs with
  | nil => simp [pieces]
  | cons c rest => simp only [pieces, run]

@[simp] theorem runs_nil : runs p [] = [] := by
  simp [runs, findAll, pieces]

theorem runs_cons_of_false {c : Char} (hc : p c = false) (cs : List Char) :
    runs p (c :: cs) = runs p cs := by
  have hrun : run p none (c :: cs) = some 0 := by simp [run, hc]
  rw [runs, findAll, pieces, hrun]
  dsimp only
  rw [List.filterMap_cons, pieces_run_eq (some c) none]
  rfl

/-- The runs of a text that starts with a character of the class: the first one takes all such
characters, and the search goes on behind it. -/
theorem runs_cons_of_true {c : Char} (hc : p c = true) (cs : List Char) :
    runs p (c :: cs) = (c :: cs.takeWhile p) :: runs p (cs.dropWhile p) := by
  have hrun : run p none (c :: cs) = some ((cs.takeWhile p).length + 1) := by simp [run, hc]
  rw [runs, findAll, pieces, hrun]
  dsimp only
  rw [List.filterMap_cons, take_length_takeWhile, pieces_run_eq _ none, drop_length_takeWhile]
  rfl

/-- Characters of the class, and behind them none. -/
structure IsRun (p : Char → Bool) (word rest : List Char) : Prop where
  ne_nil : word ≠ []
  all : ∀ c ∈ word, p c = true
  ends : ∀ c ∈ rest.head?, p c = false

/-- A run in front of a text is its first run, where the text does not go on with the class; the
other runs are those of the text. -/
theorem runs_append_of_isRun {word rest : List Char} (h : IsRun p word rest) :
    runs p (word ++ rest) = word :: runs p rest := by
  obtain ⟨hne, hall, hends⟩ := h
  have hnil : rest.takeWhile p = [] ∧ rest.dropWhile p = rest := by
    cases rest with
    | nil => simp
    | cons c rest => simp [hends c rfl]
  cases word with
  | nil => exact absurd rfl hne
  | cons c word =>
    have hword : ∀ c ∈ word, p c = true := fun d hd => hall d (by simp [hd])
    rw [List.cons_append, runs_cons_of_true (hall c (by simp)),
      List.takeWhile_append_of_pos hword, List.dropWhile_append_of_pos hword, hnil.1, hnil.2,
      List.append_nil]

/-- Every text is built from runs and single characters between them, so a property of texts may be
proved run by run. Each run is taken as a whole, up to a character outside the class. -/
theorem runs_induction {motive : List Char → Prop} (nil : motive [])
    (skip : ∀ c cs, p c = false → motive cs → motive (c :: cs))
    (word : ∀ word rest, IsRun p word rest → motive rest → motive (word ++ rest))
    (cs : List Char) : motive cs := by
  induction hlength : cs.length using Nat.strongRecOn generalizing cs with
  | ind n ih =>
    cases cs with
    | nil => exact nil
    | cons c cs =>
      by_cases hc : p c = true
      · rw [← List.takeWhile_append_dropWhile (p := p) (l := c :: cs)]
        have hne : (c :: cs).takeWhile p ≠ [] := by simp [hc]
        have hsplit := congrArg List.length (List.takeWhile_append_dropWhile (p := p) (l := c :: cs))
        have hpos := List.length_pos_iff.2 hne
        rw [List.length_append] at hsplit
        refine word _ _ ⟨hne, fun d hd => List.all_eq_true.1 List.all_takeWhile d hd, ?_⟩
          (ih _ (by omega) _ rfl)
        intro d hd
        have hnot := List.head?_dropWhile_not p (c :: cs)
        rw [hd] at hnot
        simpa using hnot
      · have hlt : cs.length < n := by simp [← hlength]
        exact skip c cs (by simpa using hc) (ih _ hlt cs rfl)

/-- A run is made of characters of the class only. -/
theorem all_of_mem_runs {cs word : List Char} (h : word ∈ runs p cs) : ∀ c ∈ word, p c = true := by
  induction cs using runs_induction (p := p) with
  | nil =>
    rw [runs_nil] at h
    cases h
  | skip c cs hc ih =>
    rw [runs_cons_of_false hc] at h
    exact ih h
  | word first rest hfirst ih =>
    rw [runs_append_of_isRun hfirst] at h
    rcases List.mem_cons.1 h with rfl | h
    · exact hfirst.all
    · exact ih h

/-- Every character of the class stands in one of the runs, so what holds of all runs holds of all
characters of the class. -/
theorem exists_run_of_mem {cs : List Char} {c : Char} (h : c ∈ cs)
    (hc : p c = true) : ∃ word ∈ runs p cs, c ∈ word := by
  induction cs using runs_induction (p := p) with
  | nil => cases h
  | skip d cs hd ih =>
    rw [runs_cons_of_false hd]
    rcases List.mem_cons.1 h with rfl | h
    · rw [hc] at hd
      cases hd
    · exact ih h
  | word word rest hword ih =>
    rw [runs_append_of_isRun hword]
    rcases List.mem_append.1 h with h | h
    · exact ⟨word, by simp, h⟩
    · obtain ⟨other, hother, hmem⟩ := ih h
      exact ⟨other, by simp [hother], hmem⟩

/-- A character outside the class keeps the runs on its two sides apart: they are found in each of
the sides by itself. -/
theorem runs_append_cons {c : Char} (hc : p c = false) (front back : List Char) :
    runs p (front ++ c :: back) = runs p front ++ runs p back := by
  induction front using runs_induction (p := p) with
  | nil => rw [List.nil_append, runs_cons_of_false hc, runs_nil, List.nil_append]
  | skip d front hd ih =>
    rw [List.cons_append, runs_cons_of_false hd, runs_cons_of_false hd, ih]
  | word word rest hword ih =>
    have hword' : IsRun p word (rest ++ c :: back) := by
      refine ⟨hword.ne_nil, hword.all, fun d hd => ?_⟩
      cases rest with
      | nil =>
        cases hd
        exact hc
      | cons e rest => exact hword.ends d hd
    rw [List.append_assoc, runs_append_of_isRun hword', runs_append_of_isRun hword, ih,
      List.cons_append]

end

end Sheetsmith.Text
