import Sheetsmith.Proofs.Text.Literal
import Sheetsmith.Proofs.Value.Shrinking
import Sheetsmith.Proofs.Value.WeightSweeps

namespace Sheetsmith.Value

open Text

/-- A spelling and its image that keep away from verbatim text. -/
structure ClearsVerbatim (word image : List Char) : Prop where
  word_ne_nil : word ≠ []
  word : ∀ c ∈ word, IsQuiet c ∧ c ≠ '\\' ∧ c ≠ ')'
  image_ne_nil : image ≠ []
  image : ∀ c ∈ image, IsIdle c

/-- All position keywords that are replaced keep away from verbatim text. -/
theorem clearsVerbatim_positionWords :
    ∀ entry ∈ positionWords, ClearsVerbatim entry.1.toList entry.2.toList := by
  have htable : ∀ entry ∈ positionWords, entry.1.toList ≠ [] ∧
      (entry.1.toList.all fun c => decide (IsQuiet c ∧ c ≠ '\\' ∧ c ≠ ')')) = true ∧
      entry.2.toList ≠ [] ∧ (entry.2.toList.all fun c => decide (IsIdle c)) = true := by
    decide
  intro entry hentry
  obtain ⟨hne, hword, hne', himage⟩ := htable entry hentry
  exact ⟨hne, forall_mem_of_all hword, hne', forall_mem_of_all himage⟩

/-- Replacing such a spelling goes on in steps. An occurrence lies outside of verbatim text or
inside of it, never across its border. -/
theorem ClearsVerbatim.sweeper {word image : List Char} (h : ClearsVerbatim word image) :
    Sweeper (replaced (literal word) fun _ => image) none where
  nil s := by
    rw [replaced, pieces]
    rfl
  verbatim s text rest htext hkeeps := by
    obtain ⟨front, d, rfl, hd⟩ := htext.exists_concat
    refine ⟨none, ?_⟩
    rw [replaced_literal_append, replaced, pieces_literal_eq word s none]
    · exact congrArg (· ++ _) hkeeps
    · intro a ha b _ hoccurs
      rw [List.getLast?_concat] at ha
      cases ha
      obtain ⟨hquiet, -, hparen⟩ := h.word d (hoccurs.subset (by simp))
      exact hd.elim hquiet.1 hparen
  step s c rest hquote := by
    cases hn : literal word s (c :: rest) with
    | none => exact .inl ⟨_, replaced_of_not_some (by simp [hn])⟩
    | some n =>
      obtain ⟨hspelled, hlength⟩ := literal_eq_some_iff.1 hn
      have hpos := List.length_pos_iff.2 h.word_ne_nil
      obtain ⟨n, rfl⟩ : ∃ m, n = m + 1 := ⟨n - 1, by omega⟩
      have htake := List.prefix_iff_eq_take.1 hspelled
      rw [hlength, List.take_succ_cons] at htake
      refine .inr ⟨word, image, rest.drop n, _, ?_, replaced_of_some hn, h.word_ne_nil,
        fun c hc => ⟨(h.word c hc).1, (h.word c hc).2.1⟩, h.image_ne_nil, h.image⟩
      rw [htake, List.cons_append, List.take_append_drop]

/-- A pass that goes on in steps spares the verbatim texts that it keeps by themselves. -/
theorem Sweeper.spares {σ : Type} {f : σ → List Char → List Char} {start : σ} (h : Sweeper f start)
    {cs : List Char} (hcloses : ClosesStrings cs)
    (hkeeps : ∀ text ∈ verbatims cs, f start text = text) : Spares cs (f start cs) := by
  obtain ⟨hsame, hnew⟩ := (h.sweeps hcloses hkeeps start).spares
  exact ⟨hsame, fun _ => hnew⟩

/-- Replacing position keywords spares the verbatim texts in which none is found. The value must
close its strings, but nothing is asked of the text between them. -/
theorem spares_shortenPosition {cs : List Char} (hcloses : ClosesStrings cs)
    (hkeeps : ∀ text ∈ verbatims cs, ∀ entry ∈ positionWords,
      replaceLiteral entry.1 entry.2 text = text) : Spares cs (shortenPosition cs) := by
  unfold shortenPosition
  have hclears := clearsVerbatim_positionWords
  generalize positionWords = entries at hkeeps hclears ⊢
  induction entries generalizing cs with
  | nil => exact .rfl
  | cons entry entries ih =>
    have hspares : Spares cs (replaceLiteral entry.1 entry.2 cs) :=
      (hclears entry (by simp)).sweeper.spares hcloses fun text htext =>
        hkeeps text htext entry (by simp)
    refine hspares.trans (ih (hspares.closes hcloses) (fun text htext other hother => ?_)
      fun other hother => hclears other (by simp [hother]))
    rw [hspares.verbatims] at htext
    exact hkeeps text htext other (by simp [hother])

/-- Shortening lengths spares the verbatim texts in which neither pass finds a length. Each pass is
asked for by itself, since the second one sees what the first one wrote. -/
theorem spares_shortenLengths {cs : List Char} (hcloses : ClosesStrings cs)
    (hkeeps : ∀ text ∈ verbatims cs, replaceAll leadingZero dropZeros text = text ∧
      replaceAll zeroUnit bareZero text = text) : Spares cs (shortenLengths cs) := by
  rw [shortenLengths_eq]
  have hfirst := shortensLengths_dropZeros.sweeper.spares hcloses fun text htext =>
    (replaceAll_leadingZero text).symm.trans (hkeeps text htext).1
  refine hfirst.trans (shortensLengths_bareZero.sweeper.spares (hfirst.closes hcloses)
    fun text htext => (replaceAll_zeroUnit text).symm.trans (hkeeps text ?_).2)
  rwa [hfirst.verbatims] at htext

/-- Writing weights as numbers spares the verbatim texts in which none is found. Words that lie
across the end of a verbatim text are covered too. -/
theorem spares_foldWeights {cs : List Char} (hcloses : ClosesStrings cs)
    (hkeeps : ∀ text ∈ verbatims cs, replaceAll (run (!isBlank ·)) weightNumber text = text) :
    Spares cs (foldWeights cs) :=
  (sweeper_weighFrom.spares hcloses hkeeps).trans (spares_trim _)

/-- What stands in joined parts stands in a part or in the separator. -/
theorem mem_of_mem_intercalate {sep : List Char} {parts : List (List Char)} {c : Char}
    (h : c ∈ sep.intercalate parts) : c ∈ sep ∨ ∃ part ∈ parts, c ∈ part := by
  induction parts with
  | nil => simp at h
  | cons part parts ih =>
    cases parts with
    | nil => exact .inr ⟨part, by simp, by simpa using h⟩
    | cons next parts =>
      rw [List.intercalate_cons_cons, List.append_assoc, List.mem_append, List.mem_append] at h
      rcases h with h | h | h
      · exact .inr ⟨part, by simp, h⟩
      · exact .inl h
      · exact (ih h).imp_right fun ⟨other, hother, hc⟩ => ⟨other, by simp [hother], hc⟩

/-- A box that is collapsed has no verbatim text: all its words are lengths. -/
theorem spares_collapseBox (cs : List Char) : Spares cs (collapseBox cs) := by
  unfold collapseBox
  dsimp only
  split
  · next hbox =>
    have hword : ∀ word ∈ runs (!isBlank ·) cs, ∀ c ∈ word, IsIdle c := fun word hword =>
      isIdle_of_isLength (List.all_eq_true.1 hbox.2.2 word hword)
    refine spares_of_isIdle (fun c hc => ?_) fun c hc => ?_
    · cases hblank : isBlank c with
      | true => exact isIdle_of_isBlank hblank
      | false =>
        obtain ⟨word, hmem, hc⟩ := exists_run_of_mem (p := (!isBlank ·)) hc (by simp [hblank])
        exact hword word hmem c hc
    · rcases mem_of_mem_intercalate hc with hspace | ⟨side, hside, hc⟩
      · obtain rfl := List.mem_singleton.1 hspace
        decide
      · exact hword side ((isPrefix_collapseSides _).subset hside) c hc
  · exact .rfl

end Sheetsmith.Value
