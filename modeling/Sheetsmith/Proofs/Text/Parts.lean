import Sheetsmith.Proofs.Text.Trim
import Sheetsmith.Text.Split

namespace Sheetsmith.Text

theorem splitAtFirst?_eq_none_iff {sep : Char} {cs : List Char} :
    splitAtFirst? sep cs = none ↔ sep ∉ cs := by
  induction cs with
  | nil => simp [splitAtFirst?]
  | cons c cs ih =>
    rw [splitAtFirst?]
    split
    · next h => simp [h]
    · next h => simp [ih, Ne.symm h]

/-- A text is split at its first separator: what stands in front of it holds none, and what stands
behind it may hold more. -/
theorem splitAtFirst?_append {sep : Char} {before : List Char} (hbefore : sep ∉ before)
    (after : List Char) : splitAtFirst? sep (before ++ sep :: after) = some (before, after) := by
  induction before with
  | nil => simp [splitAtFirst?]
  | cons c before ih =>
    simp only [List.mem_cons, not_or] at hbefore
    simp [splitAtFirst?, Ne.symm hbefore.1, ih hbefore.2]

/-- The parts between separators are those of the list library, so its lemmas apply. There is always
at least one part, also for the empty text. -/
theorem splitAtEach_eq_splitOn (sep : Char) (cs : List Char) :
    splitAtEach sep cs = cs.splitOn sep := by
  induction cs with
  | nil => rfl
  | cons c cs ih =>
    rw [splitAtEach, List.splitOn_cons_eq_if_modifyHead, ih]
    by_cases hc : c = sep
    · simp [hc]
    · cases hcs : cs.splitOn sep with
      | nil => exact absurd hcs (List.splitOn_ne_nil sep cs)
      | cons part parts => simp [hc]

/-- The separators put back between the parts give the text again, character by character. -/
theorem intercalate_splitAtEach (sep : Char) (cs : List Char) :
    [sep].intercalate (splitAtEach sep cs) = cs := by
  rw [splitAtEach_eq_splitOn, List.intercalate_splitOn]

/-- No part holds a separator, so a part that is written between separators is found again as one
part. -/
theorem not_mem_of_mem_splitAtEach {sep : Char} {cs part : List Char}
    (hpart : part ∈ splitAtEach sep cs) : sep ∉ part := by
  rw [splitAtEach_eq_splitOn] at hpart
  induction cs generalizing part with
  | nil =>
    simp only [List.splitOn_nil, List.mem_singleton] at hpart
    simp [hpart]
  | cons c cs ih =>
    rw [List.splitOn_cons_eq_if_modifyHead] at hpart
    cases hcs : cs.splitOn sep with
    | nil => exact absurd hcs (List.splitOn_ne_nil sep cs)
    | cons first parts =>
      rw [hcs] at hpart ih
      by_cases hc : c = sep
      · simp only [hc, beq_self_eq_true, if_true, List.mem_cons] at hpart
        rcases hpart with rfl | hpart
        · simp
        · exact ih (by simpa using hpart)
      · simp only [beq_iff_eq, hc, if_false, List.modifyHead_cons, List.mem_cons] at hpart
        rcases hpart with rfl | hpart
        · have hfirst : sep ∉ first := ih (by simp)
          simp [Ne.symm hc, hfirst]
        · exact ih (by simp [hpart])

/-- Text without a separator in front of another one belongs to its first part, and all other parts
stay as they were. -/
theorem splitAtEach_append_left {sep : Char} {front : List Char} (hfront : sep ∉ front)
    (cs : List Char) : ∃ first rest, splitAtEach sep cs = first :: rest ∧
      splitAtEach sep (front ++ cs) = (front ++ first) :: rest := by
  simp only [splitAtEach_eq_splitOn]
  induction front with
  | nil =>
    cases hcs : cs.splitOn sep with
    | nil => exact absurd hcs (List.splitOn_ne_nil sep cs)
    | cons first rest => exact ⟨first, rest, rfl, hcs⟩
  | cons c front ih =>
    simp only [List.mem_cons, not_or] at hfront
    obtain ⟨first, rest, hcs, happend⟩ := ih hfront.2
    refine ⟨first, rest, hcs, ?_⟩
    rw [List.cons_append, List.splitOn_cons_eq_if_modifyHead, happend]
    simp [Ne.symm hfront.1]

/-- A text starts with a character, behind its blanks, when its first part does. The separator is
neither blank nor that character; otherwise the first part could end in front of it. -/
theorem head?_trimStart_iff {sep c : Char} (hsep : isBlank sep = false) (hc : c ≠ sep)
    (cs : List Char) : (trimStart cs).head? = some c ↔
      ∃ first rest, splitAtEach sep cs = first :: rest ∧ (trimStart first).head? = some c := by
  induction cs with
  | nil => simp [splitAtEach, trimStart]
  | cons d cs ih =>
    by_cases hd : d = sep
    · simp [splitAtEach, trimStart, hd, hsep, Ne.symm hc]
    · obtain ⟨first, rest, hcs, hsplit⟩ :=
        splitAtEach_append_left (show sep ∉ [d] by simpa using Ne.symm hd) cs
      simp only [List.singleton_append] at hsplit
      rw [hcs] at ih
      rw [hsplit]
      cases hblank : isBlank d with
      | true => simpa [trimStart, hblank] using ih
      | false => simp [trimStart, hblank]

/-- Text without a separator behind another one belongs to its last part, and all other parts stay
as they were. The text in front may hold any number of separators, or none. -/
theorem splitAtEach_append_right {sep : Char} {back : List Char} (hback : sep ∉ back)
    (cs : List Char) : ∃ rest last, splitAtEach sep cs = rest ++ [last] ∧
      splitAtEach sep (cs ++ back) = rest ++ [last ++ back] := by
  simp only [splitAtEach_eq_splitOn]
  induction cs with
  | nil => exact ⟨[], [], rfl, by simpa using List.splitOn_eq_singleton hback⟩
  | cons c cs ih =>
    obtain ⟨rest, last, hcs, happend⟩ := ih
    rw [List.cons_append, List.splitOn_cons_eq_if_modifyHead, List.splitOn_cons_eq_if_modifyHead,
      hcs, happend]
    by_cases hc : c = sep
    · exact ⟨[] :: rest, last, by simp [hc], by simp [hc]⟩
    · cases rest with
      | nil => exact ⟨[], c :: last, by simp [hc], by simp [hc]⟩
      | cons first rest => exact ⟨(c :: first) :: rest, last, by simp [hc], by simp [hc]⟩

/-- The trimmed parts of a text do not depend on the blanks around it. The separator is assumed not
to be blank, as a comma is. -/
theorem map_trim_splitAtEach_trim {sep : Char} (hsep : isBlank sep = false) (cs : List Char) :
    (splitAtEach sep (trim cs)).map trim = (splitAtEach sep cs).map trim := by
  obtain ⟨left, right, hleft, hright, heq⟩ := exists_trim cs
  obtain ⟨rest, last, hbase, happend⟩ :=
    splitAtEach_append_right (hright.not_mem hsep) (trim cs)
  obtain ⟨first, others, hinner, hwhole⟩ :=
    splitAtEach_append_left (hleft.not_mem hsep) (trim cs ++ right)
  have hinner' : (splitAtEach sep (trim cs ++ right)).map trim =
      (splitAtEach sep (trim cs)).map trim := by
    simp [happend, hbase, trim_append_blank hright]
  have houter : (splitAtEach sep cs).map trim = (splitAtEach sep (trim cs ++ right)).map trim := by
    rw [congrArg (splitAtEach sep) heq, hwhole, hinner]
    simp [trim_blank_append hleft]
  rw [houter, hinner']

/-- Parts that are trimmed and hold no separator are found again, whatever blanks were put behind
the separators. The list is not empty, since no text gives an empty list of parts; its parts may be
empty. -/
theorem map_trim_splitAtEach_intercalate {sep : Char} {gap : List Char} (hgap : AllBlank gap)
    (hsep : isBlank sep = false) {parts : List (List Char)} (hne : parts ≠ [])
    (hparts : ∀ part ∈ parts, sep ∉ part ∧ trim part = part) :
    (splitAtEach sep ((sep :: gap).intercalate parts)).map trim = parts := by
  induction parts with
  | nil => exact absurd rfl hne
  | cons part parts ih =>
    obtain ⟨hfree, htrim⟩ := hparts part (by simp)
    rw [splitAtEach_eq_splitOn]
    cases parts with
    | nil => simp [List.splitOn_eq_singleton hfree, htrim]
    | cons next parts =>
      have hrest := ih (by simp) fun p hp => hparts p (List.mem_cons_of_mem _ hp)
      obtain ⟨first, others, hinner, hwhole⟩ := splitAtEach_append_left (hgap.not_mem hsep)
        ((sep :: gap).intercalate (next :: parts))
      rw [hinner] at hrest
      rw [splitAtEach_eq_splitOn] at hwhole
      rw [List.intercalate_cons_cons, List.append_assoc, List.cons_append,
        List.splitOn_append_cons_self, List.splitOn_eq_singleton hfree, hwhole]
      simpa [htrim, trim_blank_append hgap] using hrest

end Sheetsmith.Text
