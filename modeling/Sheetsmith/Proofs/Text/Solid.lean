import Sheetsmith.Proofs.Text.Ascii
import Sheetsmith.Proofs.Text.Parts

namespace Sheetsmith.Text

/-- The first part of a text is what the text starts with. -/
theorem isPrefix_of_splitAtEach {sep : Char} {cs first : List Char} {others : List (List Char)}
    (h : splitAtEach sep cs = first :: others) : first <+: cs := by
  rw [← intercalate_splitAtEach sep cs, h]
  cases others with
  | nil => exact ⟨[], by rw [List.intercalate_singleton, List.append_nil]⟩
  | cons next others =>
    rw [List.intercalate_cons_cons, List.append_assoc]
    exact List.prefix_append _ _

theorem isInfix_of_mem_splitAtEach {sep : Char} {cs part : List Char}
    (h : part ∈ splitAtEach sep cs) : part <:+: cs := by
  induction cs generalizing part with
  | nil => exact (List.mem_singleton.1 h) ▸ List.infix_rfl
  | cons c cs ih =>
    rw [splitAtEach] at h
    split at h
    · rcases List.mem_cons.1 h with rfl | h
      · exact List.nil_infix
      · exact List.infix_cons (ih h)
    · split at h
      · next hnil => exact (List.mem_singleton.1 h) ▸ List.infix_append [] [c] cs
      · next first others heq =>
        rcases List.mem_cons.1 h with rfl | h
        · obtain ⟨rest, hrest⟩ := isPrefix_of_splitAtEach heq
          exact ⟨[], rest, by rw [← hrest]; rfl⟩
        · exact List.infix_cons (ih (heq ▸ List.mem_cons_of_mem _ h))

/-- A text that is not empty and holds no blank and no comma. -/
structure Solid (cs : List Char) : Prop where
  ne_nil : cs ≠ []
  char : ∀ c ∈ cs, c ≠ ',' ∧ isBlank c = false

instance (cs : List Char) : Decidable (Solid cs) :=
  decidable_of_iff (cs ≠ [] ∧ (cs.all fun c => c != ',' && !isBlank c) = true)
    ⟨fun h => ⟨h.1, by simpa using h.2⟩, fun h => ⟨h.ne_nil, by simpa using h.char⟩⟩

namespace Solid

variable {word cs ds : List Char} (hword : Solid word)
include hword

theorem comma : ',' ∉ word :=
  fun hmem => (hword.char ',' hmem).1 rfl

theorem reverse : Solid word.reverse :=
  ⟨mt List.reverse_eq_nil_iff.1 hword.ne_nil, fun c hc => hword.char c (List.mem_reverse.1 hc)⟩

theorem dropWhile_append (cs : List Char) : (word ++ cs).dropWhile isBlank = word ++ cs := by
  obtain ⟨c, rest, rfl⟩ := List.exists_cons_of_ne_nil hword.ne_nil
  have hc := (hword.char c (by simp)).2
  rw [List.cons_append, List.dropWhile_cons_of_neg (by simp [hc])]

theorem trimEnd_append (cs : List Char) : trimEnd (word ++ cs) = word ++ trimEnd cs := by
  have hdrop := hword.reverse.dropWhile_append []
  rw [List.append_nil] at hdrop
  rw [trimEnd, trimEnd, List.reverse_append, List.dropWhile_append, hdrop]
  split
  · next hnil => simp [List.isEmpty_iff.1 hnil]
  · simp

/-- Blanks behind a word are only trimmed away where nothing follows them, so trimming a text that
starts with a word is trimming what follows at its end. -/
theorem trim_append (cs : List Char) : trim (word ++ cs) = word ++ trimEnd cs := by
  rw [trim, trimStart, hword.dropWhile_append, hword.trimEnd_append]

theorem isInfix_of_blank_append {blanks : List Char} (hblanks : AllBlank blanks)
    (h : word <:+: blanks ++ cs) : word <:+: cs := by
  induction blanks with
  | nil => exact h
  | cons b blanks ih =>
    rcases List.infix_cons_iff.1 h with ⟨rest, hrest⟩ | h
    · obtain ⟨c, word', rfl⟩ := List.exists_cons_of_ne_nil hword.ne_nil
      obtain ⟨rfl, -⟩ := List.cons.inj hrest
      have hc := (hword.char c (by simp)).2
      rw [hblanks c (by simp)] at hc
      cases hc
    · exact ih (fun c hc => hblanks c (by simp [hc])) h

theorem isInfix_of_append_blank {blanks : List Char} (hblanks : AllBlank blanks)
    (h : word <:+: cs ++ blanks) : word <:+: cs := by
  rw [← List.reverse_infix, List.reverse_append] at h
  exact List.reverse_infix.1 (hword.reverse.isInfix_of_blank_append hblanks.reverse h)

/-- A word stands in a text when it stands in the trimmed text: it has no blanks, so trimming does
not cut into it. -/
theorem isInfix_trim_iff : word <:+: trim cs ↔ word <:+: cs := by
  obtain ⟨left, right, hleft, hright, heq⟩ := exists_trim cs
  constructor
  · rintro h
    rw [heq]
    exact h.trans ⟨left, right, List.append_assoc _ _ _⟩
  · intro h
    rw [heq] at h
    exact hword.isInfix_of_append_blank hright (hword.isInfix_of_blank_append hleft h)

/-- A word that stands in a text stands in one of the parts between the commas, since it holds no
comma itself. -/
theorem exists_mem_splitAtEach (h : word <:+: cs) : ∃ part ∈ splitAtEach ',' cs, word <:+: part := by
  induction cs with
  | nil => exact absurd (List.infix_nil.1 h) hword.ne_nil
  | cons c cs ih =>
    rcases List.infix_cons_iff.1 h with ⟨rest, hrest⟩ | h
    · obtain ⟨first, others, -, hsplit⟩ := splitAtEach_append_left hword.comma rest
      rw [← hrest, hsplit]
      exact ⟨_, List.mem_cons_self, (List.prefix_append word first).isInfix⟩
    · obtain ⟨part, hpart, hinfix⟩ := ih h
      rw [splitAtEach]
      split
      · exact ⟨part, List.mem_cons_of_mem _ hpart, hinfix⟩
      · split
        · next hnil => rw [hnil] at hpart; cases hpart
        · next first others heq =>
          rw [heq] at hpart
          rcases List.mem_cons.1 hpart with rfl | hpart
          · exact ⟨_, List.mem_cons_self, List.infix_cons hinfix⟩
          · exact ⟨part, List.mem_cons_of_mem _ hpart, hinfix⟩

/-- A word stands in a text exactly if it stands in one of its trimmed parts. Blanks around the
commas make no difference. -/
theorem isInfix_iff_exists_part :
    word <:+: cs ↔ ∃ part ∈ (splitAtEach ',' cs).map trim, word <:+: part := by
  constructor
  · intro h
    obtain ⟨part, hpart, hinfix⟩ := hword.exists_mem_splitAtEach h
    exact ⟨trim part, List.mem_map_of_mem hpart, hword.isInfix_trim_iff.2 hinfix⟩
  · rintro ⟨_, hmem, hinfix⟩
    obtain ⟨part, hpart, rfl⟩ := List.mem_map.1 hmem
    exact (hword.isInfix_trim_iff.1 hinfix).trans (isInfix_of_mem_splitAtEach hpart)

/-- A trimmed text starts with a word when its first part does. That the text is trimmed is needed,
as its first part is trimmed before it is looked at. -/
theorem isPrefix_iff_first_part (htrim : trim cs = cs) :
    word <+: cs ↔ ∃ part ∈ ((splitAtEach ',' cs).map trim).head?, word <+: part := by
  constructor
  · rintro ⟨rest, rfl⟩
    obtain ⟨first, others, -, hsplit⟩ := splitAtEach_append_left hword.comma rest
    rw [hsplit]
    exact ⟨_, rfl, _, (hword.trim_append first).symm⟩
  · rintro ⟨part, hpart, rest, rfl⟩
    rw [List.head?_map, Option.mem_def, Option.map_eq_some_iff] at hpart
    obtain ⟨first, hfirst, hpart⟩ := hpart
    obtain ⟨others, hsplit⟩ := List.head?_eq_some_iff.1 hfirst
    obtain ⟨more, hmore⟩ := isPrefix_of_splitAtEach hsplit
    obtain ⟨left, right, hleft, -, heq⟩ := exists_trim first
    -- Nothing blank stands in front of a trimmed text.
    obtain rfl : left = [] := by
      have hcut := htrim
      rw [← hmore, heq, List.append_assoc, trim_blank_append hleft] at hcut
      have hlength := congrArg List.length hcut
      have hle := length_trim_le (trim first ++ right ++ more)
      simp only [List.length_append] at hlength hle
      exact List.length_eq_zero_iff.1 (by omega)
    rw [← hmore, heq, hpart, List.nil_append]
    simp only [List.append_assoc]
    exact List.prefix_append _ _

end Solid

theorem isUpper_eq_false_of_isBlank {c : Char} (h : isBlank c = true) : c.isUpper = false := by
  have hletters : ∀ n < 91, 65 ≤ n → isBlank (Char.ofNat n) = false := by decide
  refine Bool.eq_false_iff.2 fun hupper => ?_
  have hc := isUpper_iff.1 hupper
  have hletter := hletters c.toNat (by omega) hc.1
  rw [Char.ofNat_toNat, h] at hletter
  cases hletter

/-- A folded text starts with a word when the text starts with something that is folded to the word.
Folding keeps the length of a text, so it can be undone in place. -/
theorem isPrefix_fold_iff {word cs : List Char} :
    word <+: fold cs ↔ ∃ front, front <+: cs ∧ fold front = word := by
  constructor
  · rintro ⟨rest, h⟩
    obtain ⟨front, back, rfl, hfront, -⟩ := List.map_eq_append_iff.1 h.symm
    exact ⟨front, List.prefix_append _ _, hfront⟩
  · rintro ⟨front, ⟨back, rfl⟩, rfl⟩
    exact ⟨fold back, List.map_append.symm⟩

/-- A word stands in a folded text when something that is folded to the word stands in the text. -/
theorem isInfix_fold_iff {word cs : List Char} :
    word <:+: fold cs ↔ ∃ inner, inner <:+: cs ∧ fold inner = word := by
  constructor
  · rintro ⟨left, right, h⟩
    obtain ⟨front, back, rfl, hfront, -⟩ := List.map_eq_append_iff.1 h.symm
    obtain ⟨outer, inner, rfl, -, hinner⟩ := List.map_eq_append_iff.1 hfront
    exact ⟨inner, List.infix_append _ _ _, hinner⟩
  · rintro ⟨inner, ⟨left, right, rfl⟩, rfl⟩
    exact ⟨fold left, fold right, by simp [fold]⟩

section

variable {word cs ds : List Char}

/-- What is folded to a word is a word: folding makes neither blanks nor commas. -/
theorem Solid.of_fold (h : Solid (fold word)) : Solid word := by
  refine ⟨fun hnil => h.ne_nil (by rw [hnil]; rfl), fun c hc => ?_⟩
  have hfold := h.char c.toLower (List.mem_map_of_mem hc)
  constructor
  · rintro rfl
    exact hfold.1 rfl
  · refine Bool.eq_false_iff.2 fun hblank => ?_
    rw [toLower_of_isUpper_eq_false (isUpper_eq_false_of_isBlank hblank), hblank] at hfold
    cases hfold.2

/-- Whether a trimmed text starts with a word, in whatever case, is told by its trimmed parts. So it
is not changed when a header is written with other blanks around its commas. -/
theorem Solid.isPrefix_fold_of_parts (hword : Solid word) (hcs : trim cs = cs) (hds : trim ds = ds)
    (hparts : (splitAtEach ',' cs).map trim = (splitAtEach ',' ds).map trim)
    (h : word <+: fold cs) : word <+: fold ds := by
  obtain ⟨front, hfront, rfl⟩ := isPrefix_fold_iff.1 h
  refine isPrefix_fold_iff.2 ⟨front, ?_, rfl⟩
  rwa [hword.of_fold.isPrefix_iff_first_part hds, ← hparts,
    ← hword.of_fold.isPrefix_iff_first_part hcs]

/-- Whether a word stands in a text, in whatever case, is told by the trimmed parts of the text.
Here the texts need not be trimmed. -/
theorem Solid.isInfix_fold_of_parts (hword : Solid word)
    (hparts : (splitAtEach ',' cs).map trim = (splitAtEach ',' ds).map trim)
    (h : word <:+: fold cs) : word <:+: fold ds := by
  obtain ⟨inner, hinner, rfl⟩ := isInfix_fold_iff.1 h
  refine isInfix_fold_iff.2 ⟨inner, ?_, rfl⟩
  rwa [hword.of_fold.isInfix_iff_exists_part, ← hparts, ← hword.of_fold.isInfix_iff_exists_part]

end

end Sheetsmith.Text
