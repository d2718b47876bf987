import Sheetsmith.Proofs.Value.WordCalls

namespace Sheetsmith.Value

open Text

/-- Verbatim texts do not reach over the border of two texts. -/
def Apart (front back : List Char) : Prop :=
  pieces verbatim none (front ++ back) = pieces verbatim none front ++ pieces verbatim none back

/-- Verbatim text is apart from whatever follows it, since it ends where it is first closed. -/
theorem apart_of_isVerbatim {text : List Char} (h : IsVerbatim text) (back : List Char) :
    Apart text back := by
  have hself := h.pieces_append []
  rw [List.append_nil] at hself
  rw [Apart, h.pieces_append, hself]
  simp [pieces]

/-- Text at no character of which verbatim text starts is apart from whatever follows it. -/
theorem apart_of_isQuiet {text : List Char} (h : ∀ c ∈ text, IsQuiet c) (back : List Char) :
    Apart text back := by
  have hself := pieces_verbatim_append h []
  rw [List.append_nil] at hself
  rw [Apart, pieces_verbatim_append h, hself]
  simp [pieces]

/-- Where there is no verbatim text, the pieces are the single characters. -/
theorem pieces_of_verbatims_eq_nil {cs : List Char} (h : verbatims cs = []) :
    pieces verbatim none cs = cs.map .plain := by
  induction cs using verbatim_induction with
  | nil => simp [pieces]
  | verbatim text rest htext ih =>
    rw [verbatims_append htext] at h
    cases h
  | plain c rest hnone ih =>
    rw [verbatims_of_pieces_eq [c] (pieces_verbatim_cons hnone)] at h
    rw [pieces_verbatim_cons hnone, ih h, List.map_cons]

/-- A word that is no call. A `url` would begin with such a word, so it is asked for that verbatim
texts are tokens as a whole. -/
theorem apart_of_word {word back : List Char} (hword : ∀ c ∈ word, isWordChar c = true)
    (hcall : wordCall? (word ++ back) = none)
    (hwhole : ∀ text ∈ verbatims (word ++ back), colorToken none text = some text.length) :
    Apart word back := by
  have hquote : ∀ c ∈ word, ¬ IsQuote c := by
    rintro c hc (rfl | rfl)
    · exact absurd (hword _ hc) (by decide)
    · exact absurd (hword _ hc) (by decide)
  have hself : pieces verbatim none word = word.map .plain :=
    pieces_of_verbatims_eq_nil (verbatims_eq_nil hquote fun u r l hurl =>
      absurd (hword '(' (hurl.subset (by simp))) (by decide))
  rw [Apart, hself]
  clear hself
  induction word with
  | nil => rfl
  | cons c word ih =>
    rw [List.cons_append] at hcall hwhole ⊢
    rcases exists_verbatim_or_plain c (word ++ back) with ⟨text, after, htext, hcs, -⟩ | hnone
    · rw [hcs] at hcall hwhole
      rcases htext.isCall (hwhole text (by simp [verbatims_append htext])) with
        ⟨quote, tail, rfl, hquote'⟩ | ⟨name, inner, rfl, hne, hname, -⟩
      · exact absurd ((List.cons.inj hcs).1 ▸ hquote') (hquote c (by simp))
      · obtain ⟨n, hn⟩ := exists_wordCall?_iff.2
          ⟨name, inner ++ ')' :: after, rfl, hne, hname, by simp⟩
        rw [List.append_assoc, List.cons_append, List.append_assoc, List.singleton_append,
          hn] at hcall
        cases hcall
    · have hpieces := pieces_verbatim_cons hnone
      rw [verbatims_of_pieces_eq [c] hpieces] at hwhole
      rw [hpieces, ih (fun d hd => hword d (by simp [hd]))
        (wordCall?_tail (hword c (by simp)) hcall) hwhole fun d hd => hquote d (by simp [hd])]
      rfl

/-- Text that ends with its only closing parenthesis. -/
def EndsClosed (cs : List Char) : Prop :=
  ∃ front, cs = front ++ [')'] ∧ ')' ∉ front

/-- Two texts that start at one place and end with their only closing parenthesis are the same. -/
theorem endsClosed_unique {cs ds back rest : List Char} (hcs : EndsClosed cs) (hds : EndsClosed ds)
    (h : cs ++ back = ds ++ rest) : cs = ds := by
  obtain ⟨front, rfl, hfront⟩ := hcs
  obtain ⟨front', rfl, hfront'⟩ := hds
  have htake {front : List Char} (h : ')' ∉ front) (back : List Char) :
      (front ++ [')'] ++ back).takeWhile (· ≠ ')') = front := by
    rw [List.append_assoc]
    refine takeWhile_append_of_head (fun c hc => ?_) (by rintro c ⟨⟩; decide)
    simpa using fun heq : c = ')' => h (heq ▸ hc)
  rw [← htake hfront back, h, htake hfront' rest]

/-- What is left of such a text behind its start ends so too, if anything is left. -/
theorem EndsClosed.of_append {front back : List Char} (h : EndsClosed (front ++ back)) :
    back = [] ∨ EndsClosed back := by
  obtain ⟨more, heq, hmore⟩ := h
  rcases List.eq_nil_or_concat back with hnil | ⟨back, d, rfl⟩
  · exact .inl hnil
  · rw [List.concat_eq_append, ← List.append_assoc] at heq
    obtain ⟨rfl, hd⟩ := List.append_inj' heq rfl
    cases hd
    exact .inr ⟨back, List.concat_eq_append, fun hmem => hmore (by simp [hmem])⟩

theorem endsClosed_call {word inner : List Char} (hword : ∀ c ∈ word, isWordChar c = true)
    (hinner : ')' ∉ inner) : EndsClosed (word ++ '(' :: (inner ++ [')'])) := by
  refine ⟨word ++ '(' :: inner, by simp, fun hmem => ?_⟩
  rcases List.mem_append.1 hmem with hmem | hmem
  · exact absurd (hword _ hmem) (by decide)
  · rcases List.mem_cons.1 hmem with heq | hmem
    · cases heq
    · exact hinner hmem

/-- A call that closes the strings that stand in it. The induction is on the verbatim texts and
single characters of the call; none of its verbatim texts reaches over its end. -/
theorem apart_of_endsClosed {cs back : List Char} (hclosed : EndsClosed cs)
    (hcloses : ClosesStrings cs)
    (hwhole : ∀ text ∈ verbatims (cs ++ back), colorToken none text = some text.length) :
    Apart cs back := by
  have hor : cs = [] ∨ EndsClosed cs := .inr hclosed
  clear hclosed
  induction cs using verbatim_induction with
  | nil => simp [Apart, pieces]
  | verbatim text rest htext ih =>
    have hrest : rest = [] ∨ EndsClosed rest := by
      rcases hor with hnil | hclosed
      · exact .inl (List.append_eq_nil_iff.1 hnil).2
      · exact hclosed.of_append
    rw [List.append_assoc, verbatims_append htext] at hwhole
    rw [Apart, List.append_assoc, htext.pieces_append, htext.pieces_append,
      ih (hcloses.of_append [.hit text] (htext.pieces_append rest))
        (fun other hother => hwhole other (by simp [hother])) hrest, List.cons_append]
  | plain c rest hnone ih =>
    have hclosed : EndsClosed ([c] ++ rest) := hor.resolve_left (by simp)
    have hpieces := pieces_verbatim_cons hnone
    -- A call that starts here would have its parenthesis where the text has it.
    have hnone' : verbatim none (c :: (rest ++ back)) = none := by
      rcases exists_verbatim_or_plain c (rest ++ back) with ⟨text, after, htext, hcs, -⟩ | hnone'
      · rw [List.cons_append, hcs, verbatims_append htext] at hwhole
        rcases htext.isCall (hwhole text (by simp)) with
          ⟨quote, tail, rfl, hquote⟩ | ⟨word, inner, rfl, hne, hword, hinner⟩
        · obtain ⟨rfl, -⟩ := List.cons.inj hcs
          exact absurd (by simp [hpieces]) (hcloses c hquote)
        · have heq := endsClosed_unique hclosed (endsClosed_call hword hinner) hcs
          rw [← heq] at htext
          rw [List.singleton_append, IsVerbatim, hnone] at htext
          cases htext
      · exact hnone'
    rw [List.cons_append, verbatims_of_pieces_eq [c] (pieces_verbatim_cons hnone')] at hwhole
    rw [Apart, List.cons_append, pieces_verbatim_cons hnone', hpieces,
      ih (hcloses.of_append [.plain c] hpieces) hwhole hclosed.of_append, List.cons_append]

end Sheetsmith.Value
