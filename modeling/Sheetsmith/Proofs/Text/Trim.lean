import Sheetsmith.Text.Blank

namespace Sheetsmith.Text

/-- What holds of every character of a text can be checked by one pass over the characters, which is
a smaller thing to compute than the decision of the statement itself. -/
theorem forall_mem_of_all {p : Char → Prop} [DecidablePred p] {cs : List Char}
    (h : (cs.all fun c => decide (p c)) = true) : ∀ c ∈ cs, p c := by
  simpa using h

/-- A text of blanks only, the empty one included. -/
def AllBlank (cs : List Char) : Prop :=
  ∀ c ∈ cs, isBlank c = true

instance (cs : List Char) : Decidable (AllBlank cs) :=
  decidable_of_iff (cs.all isBlank = true) List.all_eq_true

theorem allBlank_nil : AllBlank [] := by
  intro c hc
  cases hc

theorem AllBlank.append {cs ds : List Char} (hcs : AllBlank cs) (hds : AllBlank ds) :
    AllBlank (cs ++ ds) := by
  intro c hc
  rcases List.mem_append.1 hc with hc | hc
  · exact hcs c hc
  · exact hds c hc

theorem AllBlank.reverse {cs : List Char} (hcs : AllBlank cs) : AllBlank cs.reverse :=
  fun c hc => hcs c (List.mem_reverse.1 hc)

theorem AllBlank.not_mem {cs : List Char} (hcs : AllBlank cs) {c : Char}
    (hc : isBlank c = false) : c ∉ cs := by
  intro hmem
  rw [hcs c hmem] at hc
  cases hc

/-- The check for blanks tells exactly the texts that hold blanks only, the empty text among them.
-/
theorem isAllBlank_iff (s : String) : isAllBlank s = true ↔ AllBlank s.toList := by
  simp [isAllBlank, AllBlank]

/-- Blanks put in front of a text are trimmed away again. -/
theorem trimStart_blank_append {blanks : List Char} (hblanks : AllBlank blanks) (cs : List Char) :
    trimStart (blanks ++ cs) = trimStart cs := by
  induction blanks with
  | nil => rfl
  | cons b blanks ih =>
    have hb : isBlank b = true := hblanks b (by simp)
    simp only [trimStart, List.cons_append, List.dropWhile_cons, hb, if_true]
    exact ih fun c hc => hblanks c (by simp [hc])

theorem trimEnd_append_blank {blanks : List Char} (hblanks : AllBlank blanks) (cs : List Char) :
    trimEnd (cs ++ blanks) = trimEnd cs := by
  have h := trimStart_blank_append hblanks.reverse cs.reverse
  simp only [trimStart] at h
  simp only [trimEnd, List.reverse_append, h]

/-- What is trimmed from the start of a text is blank, and nothing else of the text changes. -/
theorem exists_trimStart (cs : List Char) :
    ∃ blanks, AllBlank blanks ∧ cs = blanks ++ trimStart cs := by
  refine ⟨cs.takeWhile isBlank, ?_, List.takeWhile_append_dropWhile.symm⟩
  intro c hc
  exact List.all_eq_true.1 List.all_takeWhile c hc

/-- What is trimmed from the end of a text is blank, and nothing else of the text changes. -/
theorem exists_trimEnd (cs : List Char) :
    ∃ blanks, AllBlank blanks ∧ cs = trimEnd cs ++ blanks := by
  obtain ⟨blanks, hblanks, heq⟩ := exists_trimStart cs.reverse
  refine ⟨blanks.reverse, hblanks.reverse, ?_⟩
  have h := congrArg List.reverse heq
  simpa [trimEnd, trimStart] using h

/-- Trimming cuts blanks off both ends and nothing else: the text is the trimmed text with blanks on
its two sides. Both may be empty. -/
theorem exists_trim (cs : List Char) :
    ∃ left right, AllBlank left ∧ AllBlank right ∧ cs = left ++ (trim cs ++ right) := by
  obtain ⟨left, hleft, hstart⟩ := exists_trimStart cs
  obtain ⟨right, hright, hend⟩ := exists_trimEnd (trimStart cs)
  refine ⟨left, right, hleft, hright, ?_⟩
  rw [trim, ← hend]
  exact hstart

theorem length_trim_le (cs : List Char) : (trim cs).length ≤ cs.length := by
  obtain ⟨left, right, -, -, heq⟩ := exists_trim cs
  have hlength := congrArg List.length heq
  simp only [List.length_append] at hlength
  omega

/-- Blanks in front of a text do not change the trimmed text. -/
theorem trim_blank_append {blanks : List Char} (hblanks : AllBlank blanks) (cs : List Char) :
    trim (blanks ++ cs) = trim cs := by
  rw [trim, trimStart_blank_append hblanks, trim]

/-- The text starts with a character that is no blank, unless it is empty. -/
private theorem head?_trimStart {cs : List Char} {c : Char} (hc : (trimStart cs).head? = some c) :
    isBlank c = false := by
  have h := List.head?_dropWhile_not isBlank cs
  rw [trimStart] at hc
  rw [hc] at h
  simpa using h

/-- Blanks behind a text do not change the trimmed text. -/
theorem trim_append_blank {blanks : List Char} (hblanks : AllBlank blanks) (cs : List Char) :
    trim (cs ++ blanks) = trim cs := by
  by_cases hcs : AllBlank cs
  · have hboth : trim (cs ++ blanks) = trim ([] : List Char) := by
      have h := trim_blank_append (hcs.append hblanks) []
      rwa [List.append_nil] at h
    have hleft : trim cs = trim ([] : List Char) := by
      have h := trim_blank_append hcs []
      rwa [List.append_nil] at h
    rw [hboth, hleft]
  · -- Some character stays, so the blanks behind it are out of reach of `trimStart`.
    have hne : trimStart cs ≠ [] := by
      intro hnil
      apply hcs
      obtain ⟨left, hleft, heq⟩ := exists_trimStart cs
      rw [hnil, List.append_nil] at heq
      rwa [heq]
    have hstart : trimStart (cs ++ blanks) = trimStart cs ++ blanks := by
      obtain ⟨left, hleft, heq⟩ := exists_trimStart cs
      have hsplit : cs ++ blanks = left ++ (trimStart cs ++ blanks) := by
        rw [← List.append_assoc, ← heq]
      rw [hsplit, trimStart_blank_append hleft]
      cases hrest : trimStart cs with
      | nil => exact absurd hrest hne
      | cons c rest =>
        have hhead : (trimStart cs).head? = some c := by rw [hrest]; rfl
        simp [trimStart, head?_trimStart hhead]
    rw [trim, hstart, trimEnd_append_blank hblanks, trim]

/-- A trimmed text is not changed by trimming it again. -/
theorem trim_trim (cs : List Char) : trim (trim cs) = trim cs := by
  obtain ⟨left, right, hleft, hright, heq⟩ := exists_trim cs
  have h := congrArg trim heq
  rw [trim_blank_append hleft, trim_append_blank hright] at h
  exact h.symm

theorem head?_trim (cs : List Char) : (trim cs).head? = (trimStart cs).head? := by
  obtain ⟨blanks, hblanks, heq⟩ := exists_trimEnd (trimStart cs)
  rw [trim]
  cases hend : trimEnd (trimStart cs) with
  | nil =>
    rw [hend, List.nil_append] at heq
    cases hstart : trimStart cs with
    | nil => rfl
    | cons c rest =>
      have hblank := head?_trimStart (by rw [hstart]; rfl : (trimStart cs).head? = some c)
      rw [hblanks c (by rw [← heq, hstart]; simp)] at hblank
      cases hblank
  | cons c rest =>
    rw [heq, hend]
    rfl

/-- A text is trimmed when there is a blank at neither end. The empty text has no ends, so it is
trimmed. -/
theorem trim_eq_self_iff {cs : List Char} : trim cs = cs ↔
    (∀ c ∈ cs.head?, isBlank c = false) ∧ ∀ c ∈ cs.getLast?, isBlank c = false := by
  constructor
  · intro h
    refine ⟨fun c hc => ?_, fun c hc => ?_⟩
    · rw [← h, head?_trim] at hc
      exact head?_trimStart hc
    · rw [← h, trim, trimEnd, List.getLast?_reverse] at hc
      have hnot := List.head?_dropWhile_not isBlank (trimStart cs).reverse
      rw [hc] at hnot
      simpa using hnot
  · rintro ⟨hhead, hlast⟩
    have hkept {ds : List Char} (hds : ∀ c ∈ ds.head?, isBlank c = false) :
        ds.dropWhile isBlank = ds := by
      cases ds with
      | nil => rfl
      | cons d ds => simp [hds d rfl]
    rw [trim, trimStart, hkept hhead, trimEnd, hkept, List.reverse_reverse]
    rwa [List.head?_reverse]

theorem mem_of_mem_trim {cs : List Char} {c : Char} (hc : c ∈ trim cs) : c ∈ cs := by
  obtain ⟨left, right, hleft, hright, heq⟩ := exists_trim cs
  rw [heq]
  simp [hc]

end Sheetsmith.Text
