import Sheetsmith.Proofs.Value.Verbatim

namespace Sheetsmith.Value

open Text

/-- A character that has no meaning for verbatim text: none starts there, goes on with its opening
or ends, and nothing is escaped. -/
structure IsIdle (c : Char) : Prop where
  quote : ¬ IsQuote c
  escape : c ≠ '\\'
  opening : c ≠ '('
  closing : c ≠ ')'
  letter : c.toLower ∉ ['u', 'r', 'l']

instance (c : Char) : Decidable (IsIdle c) :=
  decidable_of_iff (¬ IsQuote c ∧ c ≠ '\\' ∧ c ≠ '(' ∧ c ≠ ')' ∧ c.toLower ∉ ['u', 'r', 'l'])
    ⟨fun ⟨quote, escape, opening, closing, letter⟩ => ⟨quote, escape, opening, closing, letter⟩,
      fun ⟨quote, escape, opening, closing, letter⟩ => ⟨quote, escape, opening, closing, letter⟩⟩

theorem IsIdle.isQuiet {c : Char} (h : IsIdle c) : IsQuiet c :=
  ⟨h.quote, fun hu => h.letter (by simp [hu])⟩

/-- A rewrite that takes place outside of verbatim texts only. -/
inductive Sweeps : List Char → List Char → Prop
  | nil : Sweeps [] []
  | verbatim {text old new : List Char} (htext : IsVerbatim text) (hrest : Sweeps old new) :
    Sweeps (text ++ old) (text ++ new)
  | plain {c : Char} {old new : List Char} (hquote : ¬ IsQuote c)
    (hnone : Value.verbatim none (c :: old) = none) (hrest : Sweeps old new) :
    Sweeps (c :: old) (c :: new)
  | hit {text image old new : List Char} (hne : text ≠ [])
    (htext : ∀ c ∈ text, ¬ IsQuote c ∧ c ≠ '\\')
    (hpieces : pieces Value.verbatim none (text ++ old) =
      text.map .plain ++ pieces Value.verbatim none old)
    (hne' : image ≠ []) (himage : ∀ c ∈ image, IsIdle c) (hrest : Sweeps old new) :
    Sweeps (text ++ old) (image ++ new)

/-- An enclosure that the rest of the new text closes is closed by the rest of the old one too. -/
def ClosesNoMore (old new : List Char) : Prop :=
  ∀ e, closing? e new ≠ none → closing? e old ≠ none

/-- Text in front of both closes the same in both. -/
theorem ClosesNoMore.append {old new : List Char} (h : ClosesNoMore old new) (text : List Char) :
    ClosesNoMore (text ++ old) (text ++ new) := by
  induction text with
  | nil => exact h
  | cons c text ih =>
    intro e hnew
    rw [List.cons_append] at hnew ⊢
    cases hnext : e.next c with
    | none => simp [closing?_cons_of_none hnext]
    | some e' =>
      rw [closing?_cons_of_some hnext, ne_eq, Option.map_eq_none_iff] at hnew ⊢
      exact ih e' hnew

/-- Text without quotes and backslashes leaves every enclosure as it is, or closes it. The enclosure
may have a backslash to settle in front of the text. -/
theorem closing?_append_ne_none {text : List Char} (hne : text ≠ [])
    (htext : ∀ c ∈ text, ¬ IsQuote c ∧ c ≠ '\\') {e : Enclosure} {old : List Char}
    (h : closing? e.settled old ≠ none) : closing? e (text ++ old) ≠ none := by
  induction text generalizing e with
  | nil => exact absurd rfl hne
  | cons c text ih =>
    obtain ⟨hquote, hescape⟩ := htext c (by simp)
    rw [List.cons_append]
    rcases e.next_eq hquote hescape with hnext | ⟨-, hnext⟩
    · rw [closing?_cons_of_some hnext, ne_eq, Option.map_eq_none_iff]
      cases text with
      | nil => exact h
      | cons d text =>
        exact ih (by simp) (fun c hc => htext c (by simp [hc])) (by rwa [Enclosure.settled_settled])
    · simp [closing?_cons_of_none hnext]

/-- Idle text closes nothing, so what closes an enclosure stands behind it. The image must not be
empty, since it has to settle the enclosure. -/
theorem closing?_settled_ne_none {image : List Char} (hne : image ≠ [])
    (himage : ∀ c ∈ image, IsIdle c) {e : Enclosure} {new : List Char}
    (h : closing? e (image ++ new) ≠ none) : closing? e.settled new ≠ none := by
  induction image generalizing e with
  | nil => exact absurd rfl hne
  | cons c image ih =>
    have hc := himage c (by simp)
    have hnext := (e.next_eq hc.quote hc.escape).resolve_right fun hnext => hc.closing hnext.1
    rw [List.cons_append, closing?_cons_of_some hnext, ne_eq, Option.map_eq_none_iff] at h
    cases image with
    | nil => exact h
    | cons d image =>
      rw [← Enclosure.settled_settled]
      exact ih (by simp) (fun c hc => himage c (by simp [hc])) h

namespace Sweeps

variable {old new : List Char}

/-- A rewrite outside of verbatim texts gives no enclosure an end that it did not have. -/
theorem closesNoMore (h : Sweeps old new) : ClosesNoMore old new := by
  induction h with
  | nil => exact fun _ h => h
  | @verbatim text old new htext hrest ih => exact ih.append text
  | @plain c old new hquote hnone hrest ih => exact ih.append [c]
  | hit hne htext hpieces hne' himage hrest ih =>
    exact fun e hnew => closing?_append_ne_none hne htext
      (ih e.settled (closing?_settled_ne_none hne' himage hnew))

/-- A character of the new text that is neither idle nor at the start of verbatim text has been in
the old text as well. -/
theorem exists_of_cons {c : Char} (h : Sweeps old (c :: new)) (hquiet : IsQuiet c)
    (hidle : ¬ IsIdle c) : ∃ rest, old = c :: rest ∧ Sweeps rest new := by
  generalize hcons : c :: new = cs at h
  cases h with
  | nil => cases hcons
  | verbatim htext hrest =>
    obtain ⟨d, tail, rfl, hd⟩ := htext.exists_cons
    obtain rfl := (List.cons.inj hcons).1
    rcases hd with hd | hd
    · exact absurd hd hquiet.1
    · exact absurd hd hquiet.2
  | plain hquote' hnone hrest =>
    obtain ⟨rfl, rfl⟩ := List.cons.inj hcons
    exact ⟨_, rfl, hrest⟩
  | hit hne htext hpieces hne' himage hrest =>
    obtain ⟨d, tail, rfl⟩ := List.exists_cons_of_ne_nil hne'
    obtain rfl := (List.cons.inj hcons).1
    exact absurd (himage c (by simp)) hidle

/-- No `url` is opened anew. -/
theorem verbatim_eq_none {c : Char} (h : Sweeps old new) (hquote : ¬ IsQuote c)
    (hnone : Value.verbatim none (c :: old) = none) : Value.verbatim none (c :: new) = none := by
  refine Option.eq_none_iff_forall_not_mem.2 fun n hn => ?_
  rcases verbatim_eq_some hn with ⟨quote, body, m, hquote', heq, -⟩ |
    ⟨u, r, l, body, m, heq, hu, hr, hl, -, hclosing⟩
  · obtain rfl := (List.cons.inj heq).1
    exact hquote hquote'
  · obtain ⟨rfl, rfl⟩ := List.cons.inj heq
    have hopening {c : Char} (hc : c.toLower = 'r' ∨ c.toLower = 'l' ∨ c = '(') :
        IsQuiet c ∧ ¬ IsIdle c := by
      rcases hc with hc | hc | rfl
      · refine ⟨⟨?_, by simp [hc]⟩, fun hidle => hidle.letter (by simp [hc])⟩
        rintro (rfl | rfl) <;> exact absurd hc (by decide)
      · refine ⟨⟨?_, by simp [hc]⟩, fun hidle => hidle.letter (by simp [hc])⟩
        rintro (rfl | rfl) <;> exact absurd hc (by decide)
      · decide
    obtain ⟨hquiet₁, hidle₁⟩ := hopening (.inl hr)
    obtain ⟨rest₁, rfl, h₁⟩ := h.exists_of_cons hquiet₁ hidle₁
    obtain ⟨hquiet₂, hidle₂⟩ := hopening (.inr (.inl hl))
    obtain ⟨rest₂, rfl, h₂⟩ := h₁.exists_of_cons hquiet₂ hidle₂
    obtain ⟨hquiet₃, hidle₃⟩ : IsQuiet '(' ∧ ¬ IsIdle '(' := hopening (.inr (.inr rfl))
    obtain ⟨rest₃, rfl, h₃⟩ := h₂.exists_of_cons hquiet₃ hidle₃
    rw [verbatim_url hu hr hl, Option.map_eq_none_iff] at hnone
    exact h₃.closesNoMore (.url false) (by simp [hclosing]) hnone

end Sweeps

/-- The new text has the strings and `url`s of the old one, and no string that has no end. -/
structure Spares (old new : List Char) : Prop where
  verbatims : verbatims new = verbatims old
  closes : ClosesStrings old → ClosesStrings new

theorem Spares.rfl {cs : List Char} : Spares cs cs :=
  ⟨Eq.refl _, id⟩

/-- What two rewrites spare is spared by both in a row. -/
theorem Spares.trans {a b c : List Char} (hab : Spares a b) (hbc : Spares b c) : Spares a c :=
  ⟨hbc.verbatims.trans hab.verbatims, fun ha => hbc.closes (hab.closes ha)⟩

section

variable {text cs : List Char}

/-- Verbatim text in front of others is the first of them. -/
theorem verbatims_append (h : IsVerbatim text) (rest : List Char) :
    verbatims (text ++ rest) = text :: verbatims rest := by
  rw [verbatims, findAll, h.pieces_append]
  rfl

/-- Single characters around a text do not count for its verbatim texts. Only what lies between them
is compared. -/
theorem verbatims_of_pieces (front back : List Char) (h : pieces verbatim none cs =
      front.map .plain ++ pieces verbatim none text ++ back.map .plain) :
    verbatims cs = verbatims text := by
  rw [verbatims, findAll, h, List.filterMap_append, List.filterMap_append, List.filterMap_map,
    List.filterMap_map]
  simp [verbatims, findAll]

theorem verbatims_of_pieces_eq (front : List Char)
    (h : pieces verbatim none cs = front.map .plain ++ pieces verbatim none text) :
    verbatims cs = verbatims text :=
  verbatims_of_pieces front [] (h.trans (List.append_nil _).symm)

end

/-- A rewrite outside of verbatim texts keeps them and their order, and leaves no string without
an end. The induction is on the rewrite. -/
theorem Sweeps.spares {old new : List Char} (h : Sweeps old new) :
    verbatims new = verbatims old ∧ ClosesStrings new := by
  have hmap {quote : Char} {cs : List Char} (h : ∀ c ∈ cs, ¬ IsQuote c) (hquote : IsQuote quote) :
      Piece.plain quote ∉ cs.map Piece.plain := by
    intro hmem
    obtain ⟨c, hc, ⟨⟩⟩ := List.mem_map.1 hmem
    exact h quote hc hquote
  induction h with
  | nil => exact ⟨rfl, fun quote _ => by simp [pieces]⟩
  | verbatim htext hrest ih =>
    obtain ⟨hsame, hcloses⟩ := ih
    refine ⟨by rw [verbatims_append htext, verbatims_append htext, hsame], fun quote hquote => ?_⟩
    rw [htext.pieces_append]
    simpa using hcloses quote hquote
  | @plain c old new hquote hnone hrest ih =>
    obtain ⟨hsame, hcloses⟩ := ih
    have hpieces := pieces_verbatim_cons (hrest.verbatim_eq_none hquote hnone)
    refine ⟨?_, fun quote hquote' => ?_⟩
    · rw [verbatims_of_pieces_eq [c] hpieces, hsame,
        verbatims_of_pieces_eq [c] (pieces_verbatim_cons hnone)]
    · rw [hpieces, List.mem_cons, not_or]
      refine ⟨?_, hcloses quote hquote'⟩
      rintro ⟨⟩
      exact hquote hquote'
  | @hit text image old new hne htext hpieces hne' himage hrest ih =>
    obtain ⟨hsame, hcloses⟩ := ih
    have hpieces' : pieces Value.verbatim none (image ++ new) =
        image.map .plain ++ pieces Value.verbatim none new :=
      pieces_verbatim_append (fun c hc => (himage c hc).isQuiet) new
    refine ⟨?_, fun quote hquote => ?_⟩
    · rw [verbatims_of_pieces_eq image hpieces', hsame, verbatims_of_pieces_eq text hpieces]
    · rw [hpieces', List.mem_append, not_or]
      exact ⟨hmap (fun c hc => (himage c hc).quote) hquote, hcloses quote hquote⟩

/-- Idle characters neither close an enclosure nor open a `url`. -/
theorem verbatim_append_idle {idle : List Char} (h : ∀ c ∈ idle, IsIdle c) (c : Char)
    (cs : List Char) : verbatim none (c :: (cs ++ idle)) = verbatim none (c :: cs) := by
  have hclosing (e : Enclosure) (cs : List Char) : closing? e (cs ++ idle) = closing? e cs := by
    cases hcs : closing? e cs with
    | none => exact closing?_append_eq_none hcs fun d hd => ⟨(h d hd).quote, (h d hd).closing⟩
    | some n => exact closing?_append hcs idle
  by_cases hquote : IsQuote c
  · rw [verbatim_of_isQuote hquote, verbatim_of_isQuote hquote, hclosing]
  · cases hurl : startsWithFold "url(".toList (c :: cs) with
    | true =>
      obtain ⟨u, r, l, rest, hcs, hu, hr, hl⟩ := startsWithFold_url.1 hurl
      rw [← List.cons_append, hcs]
      simp only [List.cons_append, verbatim_url hu hr hl, hclosing]
    | false =>
      rw [verbatim_of_not_isQuote hquote hurl, verbatim_of_not_isQuote hquote]
      refine Bool.eq_false_iff.2 fun hurl' => ?_
      obtain ⟨u, r, l, rest, hcs, hu, hr, hl⟩ := startsWithFold_url.1 hurl'
      obtain ⟨rfl, htail⟩ := List.cons.inj hcs
      -- One of the characters of the opening would be idle.
      match cs with
      | [] =>
        rw [List.nil_append] at htail
        exact (h r (by simp [htail])).letter (by simp [hr])
      | [_] =>
        simp only [List.cons_append, List.nil_append, List.cons.injEq] at htail
        exact (h l (by simp [htail])).letter (by simp [hl])
      | [_, _] =>
        simp only [List.cons_append, List.nil_append, List.cons.injEq] at htail
        exact (h '(' (by simp [htail])).opening rfl
      | _ :: _ :: _ :: tail =>
        simp only [List.cons_append, List.cons.injEq] at htail
        obtain ⟨rfl, rfl, rfl, -⟩ := htail
        rw [startsWithFold_url.2 ⟨_, _, _, tail, rfl, hu, hr, hl⟩] at hurl
        cases hurl

/-- So idle characters at the end of a text are pieces of their own. -/
theorem pieces_verbatim_append_idle {idle : List Char} (h : ∀ c ∈ idle, IsIdle c) (cs : List Char) :
    pieces verbatim none (cs ++ idle) = pieces verbatim none cs ++ idle.map .plain := by
  induction cs using verbatim_induction with
  | nil =>
    have hpieces := pieces_verbatim_append (fun c hc => (h c hc).isQuiet) []
    simpa [pieces] using hpieces
  | verbatim text rest htext ih =>
    rw [List.append_assoc, htext.pieces_append, htext.pieces_append, ih, List.cons_append]
  | plain c rest hnone ih =>
    rw [List.cons_append, pieces_verbatim_cons (by rw [verbatim_append_idle h, hnone]),
      pieces_verbatim_cons hnone, ih, List.cons_append]

theorem isIdle_of_isBlank {c : Char} (h : isBlank c = true) : IsIdle c := by
  have halpha := (isBlank_apart h).2.2.1
  have hne {d : Char} (hd : isBlank d = false) : c ≠ d := by
    rintro rfl
    rw [h] at hd
    cases hd
  refine ⟨?_, hne (by decide), hne (by decide), hne (by decide), fun hmem => ?_⟩
  · rintro (rfl | rfl)
    · exact absurd h (by decide)
    · exact absurd h (by decide)
  · have hletter : ∀ d ∈ ['u', 'r', 'l'], d.isAlpha = true := forall_mem_of_all (by decide)
    rw [isAlpha_of_toLower (hletter _ hmem)] at halpha
    cases halpha

/-- Blanks at both ends do not count for verbatim texts. -/
theorem spares_trim (cs : List Char) : Spares cs (trim cs) := by
  obtain ⟨left, right, hleft, hright, hcs⟩ := exists_trim cs
  have hidle {blanks : List Char} (h : AllBlank blanks) : ∀ c ∈ blanks, IsIdle c :=
    fun c hc => isIdle_of_isBlank (h c hc)
  have hsplit : pieces verbatim none cs =
      left.map .plain ++ pieces verbatim none (trim cs) ++ right.map .plain := by
    conv_lhs => rw [hcs]
    rw [pieces_verbatim_append fun c hc => (hidle hleft c hc).isQuiet,
      pieces_verbatim_append_idle (hidle hright), List.append_assoc]
  refine ⟨(verbatims_of_pieces left right hsplit).symm, fun hcloses quote hquote hmem => ?_⟩
  exact hcloses quote hquote (by simp [hsplit, hmem])

/-- A pass over a text that goes on in steps. It passes over a verbatim text as a whole if it keeps
that text by itself, and a step outside of verbatim texts keeps a character or puts idle characters
in the place of others. -/
structure Sweeper {σ : Type} (f : σ → List Char → List Char) (start : σ) : Prop where
  nil : ∀ s, f s [] = []
  verbatim : ∀ s text rest, IsVerbatim text → f start text = text →
    ∃ t, f s (text ++ rest) = text ++ f t rest
  step : ∀ s c rest, ¬ IsQuote c →
    (∃ t, f s (c :: rest) = c :: f t rest) ∨
    ∃ text image after t, c :: rest = text ++ after ∧ f s (c :: rest) = image ++ f t after ∧
      text ≠ [] ∧ (∀ c ∈ text, IsQuiet c ∧ c ≠ '\\') ∧
      image ≠ [] ∧ ∀ c ∈ image, IsIdle c

/-- The end of a text closes its strings if the whole does, and no piece lies across the border. The
pieces of the front are not asked to close anything. -/
theorem ClosesStrings.of_append {cs back : List Char} (h : ClosesStrings cs) (front : List Piece)
    (hpieces : pieces verbatim none cs = front ++ pieces verbatim none back) :
    ClosesStrings back :=
  fun quote hquote hmem => h quote hquote (by simp [hpieces, hmem])

/-- A pass that goes on in steps rewrites outside of verbatim texts, if it keeps each of them by
itself. All strings of the text must have an end. -/
theorem Sweeper.sweeps {σ : Type} {f : σ → List Char → List Char} {start : σ} (h : Sweeper f start)
    {cs : List Char} (hcloses : ClosesStrings cs)
    (hkeeps : ∀ text ∈ verbatims cs, f start text = text) (s : σ) : Sweeps cs (f s cs) := by
  induction hlength : cs.length using Nat.strongRecOn generalizing cs s with
  | ind n ih =>
    subst hlength
    cases cs with
    | nil =>
      rw [h.nil]
      exact .nil
    | cons c rest =>
      rcases exists_verbatim_or_plain c rest with ⟨text, after, htext, hcs, hlt⟩ | hnone
      · rw [hcs] at hcloses hkeeps hlt ih ⊢
        rw [verbatims_append htext] at hkeeps
        obtain ⟨t, ht⟩ := h.verbatim s text after htext (hkeeps text (by simp))
        rw [ht]
        exact .verbatim htext (ih after.length hlt
          (hcloses.of_append [.hit text] (htext.pieces_append after))
          (fun other hother => hkeeps other (by simp [hother])) t rfl)
      · have hpieces := pieces_verbatim_cons hnone
        have hquote : ¬ IsQuote c := fun hquote => hcloses c hquote (by simp [hpieces])
        rcases h.step s c rest hquote with ⟨t, ht⟩ |
          ⟨text, image, after, t, hcs, ht, hne, htext, hne', himage⟩
        · rw [ht]
          rw [verbatims_of_pieces_eq [c] hpieces] at hkeeps
          exact .plain hquote hnone
            (ih rest.length (by simp) (hcloses.of_append [.plain c] hpieces) hkeeps t rfl)
        · rw [ht]
          rw [hcs] at hcloses hkeeps ih ⊢
          have hpieces := pieces_verbatim_append (fun c hc => (htext c hc).1) after
          rw [verbatims_of_pieces_eq text hpieces] at hkeeps
          have hpos := List.length_pos_iff.2 hne
          exact .hit hne (fun c hc => ⟨(htext c hc).1.1, (htext c hc).2⟩) hpieces hne' himage
            (ih after.length (by simp; omega) (hcloses.of_append _ hpieces) hkeeps t rfl)

end Sheetsmith.Value
