import Sheetsmith.Proofs.Text.Rewriting

namespace Sheetsmith.Text

/-- The search for a fixed spelling does not look at the character in front of it, so every text is
cut in the same way behind any character. -/
theorem pieces_literal_eq (word : List Char) (before before' : Option Char) (cs : List Char) :
    pieces (literal word) before cs = pieces (literal word) before' cs := by
  cases cs with
  | nil => rw [pieces, pieces]
  | cons c rest =>
    rw [pieces, pieces]
    rfl

/-- A spelling is found where it stands at the start of the text, and its own length is reported.
Letters are compared as they are; the case is not folded. -/
theorem literal_eq_some_iff {word cs : List Char} {before : Option Char} {n : Nat} :
    literal word before cs = some n ↔ word <+: cs ∧ word.length = n := by
  rw [literal, ← List.isPrefixOf_iff_prefix]
  split <;> simp_all

/-- Where no occurrence of a spelling reaches over the border of two texts, it is replaced in each
of them by itself. It is enough that no two characters at the border stand side by side in the
spelling; nothing is assumed about the image. -/
theorem replaced_literal_append {word : List Char} {image : List Char → List Char}
    {before : Option Char} {front back : List Char}
    (h : ∀ a ∈ front.getLast?, ∀ b ∈ back.head?, ¬ [a, b] <:+: word) :
    replaced (literal word) image before (front ++ back) =
      replaced (literal word) image before front ++ replaced (literal word) image none back := by
  induction before, front using pieces.induct (literal word) with
  | case1 before =>
    rw [List.nil_append, replaced, replaced, pieces_literal_eq word before none]
    simp [replaced, pieces]
  | case2 before c rest n hn ih =>
    obtain ⟨hspelled, hlength⟩ := literal_eq_some_iff.1 hn
    have hle : n ≤ rest.length := by
      have hle := hspelled.length_le
      rw [List.length_cons] at hle
      omega
    have hmatch : literal word before (c :: (rest ++ back)) = some (n + 1) :=
      literal_eq_some_iff.2 ⟨hspelled.trans (List.prefix_append (c :: rest) back), hlength⟩
    have hrest : ∀ a ∈ (rest.drop n).getLast?, ∀ b ∈ back.head?, ¬ [a, b] <:+: word := by
      intro a ha
      refine h a ?_
      obtain ⟨more, hmore⟩ := (List.drop_suffix n rest).trans (List.suffix_cons c rest)
      rw [← hmore, List.getLast?_append, Option.mem_def.1 ha]
      rfl
    rw [List.cons_append, replaced_of_some hmatch, replaced_of_some hn,
      List.take_append_of_le_length hle, List.drop_append_of_le_length hle, ih hrest,
      List.append_assoc]
  | case3 before c rest hn ih =>
    have hnone : ∀ n, literal word before (c :: (rest ++ back)) = some (n + 1) → False := by
      intro n hmatch
      obtain ⟨hspelled, hlength⟩ := literal_eq_some_iff.1 hmatch
      rcases List.prefix_or_prefix_of_prefix hspelled (List.prefix_append (c :: rest) back) with
        hshort | ⟨more, hmore⟩
      · exact hn n (literal_eq_some_iff.2 ⟨hshort, hlength⟩)
      · cases more with
        | nil =>
          rw [List.append_nil] at hmore
          exact hn n (literal_eq_some_iff.2 ⟨hmore ▸ List.prefix_rfl, hlength⟩)
        | cons b more =>
          -- The occurrence takes the last character in front of the border and the first behind it.
          obtain ⟨tail, htail⟩ := hspelled
          rw [← hmore, List.append_assoc, ← List.cons_append, List.append_cancel_left_eq] at htail
          obtain ⟨front, a, hfront⟩ := List.eq_nil_or_concat (c :: rest) |>.resolve_left (by simp)
          refine h a ?_ b ?_ ⟨front, more, ?_⟩
          · rw [hfront]
            simp
          · rw [← htail]
            simp
          · rw [← hmore, hfront]
            simp
    have hrest : ∀ a ∈ rest.getLast?, ∀ b ∈ back.head?, ¬ [a, b] <:+: word := by
      intro a ha
      refine h a ?_
      rw [List.getLast?_cons, Option.mem_def.1 ha]
      rfl
    rw [List.cons_append, replaced_of_not_some hnone, replaced_of_not_some hn, ih hrest]
    rfl

/-- A text without one of the characters of a spelling has no occurrence of it, so replacing it
leaves the text as it is, whatever the image is. -/
theorem replaced_literal_of_not_mem {word : List Char} {image : List Char → List Char}
    {before : Option Char} {cs : List Char} {c : Char} (hc : c ∈ word) (hcs : c ∉ cs) :
    replaced (literal word) image before cs = cs := by
  induction cs generalizing before with
  | nil => rw [replaced, pieces]; rfl
  | cons d rest ih =>
    rw [replaced_of_not_some, ih fun hmem => hcs (List.mem_cons_of_mem d hmem)]
    intro n hn
    exact hcs ((literal_eq_some_iff.1 hn).1.subset hc)

end Sheetsmith.Text
