import Sheetsmith.Proofs.Value.Idle
import Sheetsmith.Proofs.Value.Zeros

namespace Sheetsmith.Value

open Text

/-- A character that ends verbatim text. -/
abbrev IsCloser (c : Char) : Prop :=
  IsQuote c ∨ c = ')'

/-- A character that ends verbatim text is no part of a length, and a length may start behind it. -/
theorem IsCloser.apart {d : Char} (h : IsCloser d) : isZero d = false ∧ isDigit d = false ∧
    d.isAlpha = false ∧ d ≠ '.' ∧ d ≠ '%' ∧ isLead '.' d = true ∧ isBlank d = false := by
  rcases h with (rfl | rfl) | rfl <;> decide

/-- What is taken from the front of a text ends in front of a character that is not taken. -/
theorem takeWhile_append_stop {p : Char → Bool} {d : Char} (hd : p d = false)
    (front rest : List Char) : (front ++ d :: rest).takeWhile p = front.takeWhile p := by
  induction front with
  | nil => simp [hd]
  | cons c front ih => cases hc : p c <;> simp [hc, ih]

theorem drop_takeWhile_append (p : Char → Bool) (front back : List Char) :
    (front ++ back).drop (front.takeWhile p).length = front.dropWhile p ++ back := by
  rw [List.drop_append_of_le_length (List.takeWhile_sublist p).length_le, drop_length_takeWhile]

/-- Text in front of a character that it does not have. The character behind the text may occur in
what follows as often as it likes. -/
theorem exists_append_of_not_mem {text front back rest : List Char} {d : Char}
    (h : front ++ d :: rest = text ++ back) (hd : d ∉ text) :
    ∃ middle, front = text ++ middle ∧ back = middle ++ d :: rest := by
  rcases List.append_eq_append_iff.1 h with ⟨middle, htext, hback⟩ | ⟨middle, hfront, hback⟩
  · cases middle with
    | nil => exact ⟨[], by simpa using htext.symm, by simpa using hback.symm⟩
    | cons e middle =>
      obtain ⟨rfl, -⟩ := List.cons.inj hback
      exact absurd (by simp [htext]) hd
  · exact ⟨middle, hfront, hback⟩

/-- Whether a word ends depends on the next character only. -/
theorem wordEnds_append_cons (middle : List Char) (d : Char) (rest rest' : List Char) :
    wordEnds (middle ++ d :: rest) = wordEnds (middle ++ d :: rest') := by
  cases middle <;> rfl

/-- What is found in front of the end of verbatim text does not depend on what is behind it. -/
def LooksNoFurther (body : List Char → Option Nat) : Prop :=
  ∀ d, IsCloser d → ∀ front rest rest', body (front ++ d :: rest) = body (front ++ d :: rest')

/-- A unit is found without a look behind the end of verbatim text. -/
theorem looksNoFurther_wholeUnit? : LooksNoFurther wholeUnit? := by
  have hsame {d : Char} (hd : IsCloser d) {front rest rest' : List Char} {n : Nat}
      (h : wholeUnit? (front ++ d :: rest) = some n) :
      wholeUnit? (front ++ d :: rest') = some n := by
    obtain ⟨unit, back, hcs, hunit, hn, hends⟩ := wholeUnit?_eq_some_iff.1 h
    have hmem : d ∉ unit := fun hmem => by
      have halpha := hunit.spelled.2 d hmem
      rw [hd.apart.2.2.1] at halpha
      cases halpha
    obtain ⟨middle, rfl, rfl⟩ := exists_append_of_not_mem hcs hmem
    rw [wordEnds_append_cons middle d rest rest'] at hends
    exact wholeUnit?_eq_some_iff.2 ⟨unit, middle ++ d :: rest', by simp, hunit, hn, hends⟩
  exact fun d hd front rest rest' => Option.ext fun n => ⟨hsame hd, hsame hd⟩

/-- A zero with a unit is found without a look behind the end of verbatim text. -/
theorem looksNoFurther_zeroWithUnit? : LooksNoFurther zeroWithUnit? := by
  intro d hd front rest rest'
  simp only [zeroWithUnit?, takeWhile_append_stop hd.apart.1, drop_takeWhile_append,
    looksNoFurther_wholeUnit? d hd _ rest rest']

/-- A fraction is found without a look behind the end of verbatim text. -/
theorem looksNoFurther_zeroFraction? : LooksNoFurther zeroFraction? := by
  intro d hd front rest rest'
  obtain ⟨hzero, hdigit, -, hpoint, hpercent, -⟩ := hd.apart
  simp only [zeroFraction?, takeWhile_append_stop hzero, drop_takeWhile_append]
  cases front.dropWhile isZero with
  | nil => simp [hpoint]
  | cons c front =>
    by_cases hc : c = '.'
    · subst hc
      simp only [List.cons_append, takeWhile_append_stop hdigit, drop_takeWhile_append]
      cases front.dropWhile isDigit with
      | nil =>
        have hunit := looksNoFurther_wholeUnit? d hd [] rest rest'
        simp only [List.nil_append] at hunit
        simp [hpercent, hunit]
      | cons e after =>
        have hunit := looksNoFurther_wholeUnit? d hd (e :: after) rest rest'
        simp only [List.cons_append] at hunit
        by_cases he : e = '%'
        · simp [he]
        · simp [he, hunit]
    · simp [hc]

/-- A pass over lengths: what is found starts with a zero, and neither it nor its image has a
meaning for verbatim text. -/
structure ShortensLengths (body : List Char → Option Nat) (image : List Char → List Char) :
    Prop where
  zero : ∀ cs, (∀ c ∈ cs.head?, isZero c = false) → body cs = none
  looksNoFurther : LooksNoFurther body
  idle : ∀ cs n, body cs = some n → ∃ text rest, cs = text ++ rest ∧ n = text.length ∧ text ≠ [] ∧
    (∀ c ∈ text, IsIdle c) ∧ image text ≠ [] ∧ ∀ c ∈ image text, IsIdle c

namespace ShortensLengths

variable {body : List Char → Option Nat} {image : List Char → List Char}
  (h : ShortensLengths body image)
include h

/-- A place is passed over, or a match there is replaced. A match and its image are idle, so neither
opens nor closes anything. -/
theorem rewriteFrom_cons (bounded : Bool) (c : Char) (rest : List Char) :
    ((if bounded then body (c :: rest) else none) = none ∧
      rewriteFrom '.' body image bounded (c :: rest) =
        c :: rewriteFrom '.' body image (isLead '.' c) rest) ∨
    ∃ text after, bounded = true ∧ c :: rest = text ++ after ∧
      body (c :: rest) = some text.length ∧ text ≠ [] ∧ (∀ c ∈ text, IsIdle c) ∧
      image text ≠ [] ∧ (∀ c ∈ image text, IsIdle c) ∧
      rewriteFrom '.' body image bounded (c :: rest) =
        image text ++ rewriteFrom '.' body image false after := by
  cases bounded with
  | false => exact .inl ⟨rfl, rewriteFrom_false c rest⟩
  | true =>
    cases hmatch : body (c :: rest) with
    | none => exact .inl ⟨if_pos rfl, by rw [rewriteFrom_of_none hmatch, rewriteFrom_false]⟩
    | some n =>
      obtain ⟨text, after, hcs, rfl, hne, hidle, hne', hidle'⟩ := h.idle _ n hmatch
      refine .inr ⟨text, after, rfl, hcs, rfl, hne, hidle, hne', hidle', ?_⟩
      rw [hcs] at hmatch ⊢
      exact rewriteFrom_of_some hne hmatch

/-- Verbatim text is rewritten by itself, up to its end. So whether a pass keeps it can be asked of
that text alone. -/
theorem rewriteFrom_append_cons {d : Char} (hd : IsCloser d) (bounded : Bool)
    (front rest : List Char) :
    rewriteFrom '.' body image bounded (front ++ d :: rest) =
      rewriteFrom '.' body image bounded (front ++ [d]) ++
        rewriteFrom '.' body image true rest := by
  have hidle : ¬ IsIdle d := by
    rcases hd with (rfl | rfl) | rfl <;> decide
  induction hlength : front.length using Nat.strongRecOn generalizing front bounded with
  | ind n ih =>
    subst hlength
    cases front with
    | nil =>
      have hnone (rest : List Char) : body (d :: rest) = none :=
        h.zero _ (by rintro c ⟨⟩; exact hd.apart.1)
      rw [List.nil_append, List.nil_append, rewriteFrom_of_none (hnone rest),
        rewriteFrom_of_none (hnone []), rewriteFrom_false, rewriteFrom_false,
        hd.apart.2.2.2.2.2.1]
      simp [rewriteFrom]
    | cons c front =>
      rw [List.cons_append, List.cons_append]
      have hsame := h.looksNoFurther d hd (c :: front) rest []
      rw [List.cons_append, List.cons_append] at hsame
      rcases h.rewriteFrom_cons bounded c (front ++ d :: rest) with ⟨hnone, hpass⟩ |
        ⟨text, after, rfl, hcs, hmatch, hne, htext, -, -, hpass⟩
      · rw [hsame] at hnone
        rcases h.rewriteFrom_cons bounded c (front ++ [d]) with ⟨-, hpass'⟩ |
          ⟨text, after, rfl, -, hmatch, -⟩
        · rw [hpass, hpass', ih front.length (by simp) _ front rfl, List.cons_append]
        · rw [if_pos rfl, hmatch] at hnone
          cases hnone
      · -- The match ends in front of the closing character, so it is found there as well.
        rw [← List.cons_append] at hcs
        obtain ⟨middle, hfront, rfl⟩ :=
          exists_append_of_not_mem hcs fun hmem => hidle (htext d hmem)
        have hpass' : rewriteFrom '.' body image true (c :: (front ++ [d])) =
            image text ++ rewriteFrom '.' body image false (middle ++ [d]) := by
          rw [hsame, ← List.cons_append, hfront, List.append_assoc] at hmatch
          rw [← List.cons_append, hfront, List.append_assoc, rewriteFrom_of_some hne hmatch]
        have hlt : middle.length < (c :: front).length := by
          have hpos := List.length_pos_iff.2 hne
          rw [hfront, List.length_append]
          omega
        rw [hpass, hpass', ih middle.length hlt _ middle rfl, List.append_assoc]

/-- A pass over lengths goes on in steps and puts idle characters in the place of others. -/
theorem sweeper : Sweeper (rewriteFrom '.' body image) true where
  nil s := by rw [rewriteFrom]
  verbatim s text rest htext hkeeps := by
    obtain ⟨c, tail, hcons, hc⟩ := htext.exists_cons
    obtain ⟨front, d, rfl, hd⟩ := htext.exists_concat
    have hnone : body (front ++ [d]) = none := by
      rw [hcons]
      refine h.zero _ ?_
      rintro _ ⟨⟩
      rw [Bool.eq_false_iff]
      intro hzero
      rw [eq_zero_of_isZero hzero] at hc
      exact absurd hc (by decide)
    refine ⟨true, ?_⟩
    rw [List.append_assoc, List.singleton_append, h.rewriteFrom_append_cons hd,
      rewriteFrom_of_none hnone, ← rewriteFrom_of_none hnone true, hkeeps]
  step s c rest hquote := by
    rcases h.rewriteFrom_cons s c rest with ⟨-, hpass⟩ |
      ⟨text, after, -, hcs, -, hne, htext, hne', himage, hpass⟩
    · exact .inl ⟨_, hpass⟩
    · exact .inr ⟨text, image text, after, false, hcs, hpass, hne,
        fun c hc => ⟨(htext c hc).isQuiet, (htext c hc).escape⟩, hne', himage⟩

end ShortensLengths

/-- The pass that takes the units off zeros is one over lengths. -/
theorem shortensLengths_bareZero : ShortensLengths zeroWithUnit? bareZero where
  zero _ := zeroWithUnit?_eq_none
  looksNoFurther := looksNoFurther_zeroWithUnit?
  idle cs n h := by
    unfold zeroWithUnit? at h
    dsimp only at h
    split at h
    · cases h
    · next hzeros =>
      obtain ⟨m, hm, rfl⟩ := Option.map_eq_some_iff.1 h
      rw [drop_length_takeWhile] at hm
      obtain ⟨unit, rest, hrest, hunit, rfl, -⟩ := wholeUnit?_eq_some_iff.1 hm
      obtain ⟨cs', rfl⟩ := exists_zero_of_takeWhile hzeros
      have himage : bareZero (('0' :: cs').takeWhile isZero ++ unit) = ['0'] := by
        rw [List.takeWhile_cons_of_pos rfl, List.cons_append, bareZero, splitLead_of_isZero rfl]
        rfl
      refine ⟨('0' :: cs').takeWhile isZero ++ unit, rest, ?_, by simp, by simp [isZero],
        List.forall_mem_append.2 ⟨fun c hc => isIdle_of_isZero ?_, isIdle_of_isUnit hunit⟩,
        by simp [himage], ?_⟩
      · rw [List.append_assoc, ← hrest, List.takeWhile_append_dropWhile]
      · exact List.all_eq_true.1 List.all_takeWhile c hc
      · rw [himage]
        exact forall_mem_of_all (by decide)

/-- The pass that takes zeros off fractions is one over lengths. -/
theorem shortensLengths_dropZeros : ShortensLengths zeroFraction? dropZeros where
  zero _ := zeroFraction?_eq_none
  looksNoFurther := looksNoFurther_zeroFraction?
  idle cs n h := by
    unfold zeroFraction? at h
    dsimp only at h
    split at h
    · next rest hrest =>
      split at h
      · cases h
      · next hnone =>
        rw [not_or] at hnone
        rw [drop_length_takeWhile] at h hrest
        obtain ⟨unit, more, hmore, hunit, rfl⟩ : ∃ unit more,
            rest.dropWhile isDigit = unit ++ more ∧ (∀ c ∈ unit, IsIdle c) ∧
              n = (cs.takeWhile isZero).length + 1 + (rest.takeWhile isDigit).length +
                unit.length := by
          split at h
          · next more hmore =>
            exact ⟨['%'], more, hmore, forall_mem_of_all (by decide), (Option.some.inj h).symm⟩
          · obtain ⟨m, hm, rfl⟩ := Option.map_eq_some_iff.1 h
            obtain ⟨unit, more, hmore, hunit, rfl, -⟩ := wholeUnit?_eq_some_iff.1 hm
            exact ⟨unit, more, hmore, isIdle_of_isUnit hunit, rfl⟩
        have hzeros : ∀ c ∈ cs.takeWhile isZero, isZero c = true :=
          List.all_eq_true.1 List.all_takeWhile
        have hfraction : ∀ c ∈ '.' :: (rest.takeWhile isDigit ++ unit), IsIdle c :=
          List.forall_mem_cons.2 ⟨by decide, List.forall_mem_append.2 ⟨fun c hc =>
            isIdle_of_isDigit (List.all_eq_true.1 List.all_takeWhile c hc), hunit⟩⟩
        have himage : dropZeros (cs.takeWhile isZero ++ '.' :: (rest.takeWhile isDigit ++ unit)) =
            '.' :: (rest.takeWhile isDigit ++ unit) := by
          have hsplit : splitLead (cs.takeWhile isZero ++ '.' :: (rest.takeWhile isDigit ++ unit)) =
              ([], cs.takeWhile isZero ++ '.' :: (rest.takeWhile isDigit ++ unit)) := by
            obtain ⟨cs', rfl⟩ := exists_zero_of_takeWhile hnone.1
            rw [List.takeWhile_cons_of_pos rfl, List.cons_append, splitLead_of_isZero rfl]
          rw [dropZeros, hsplit]
          dsimp only
          rw [List.nil_append, List.dropWhile_append_of_pos hzeros, List.dropWhile_cons_of_neg]
          decide
        refine ⟨cs.takeWhile isZero ++ '.' :: (rest.takeWhile isDigit ++ unit), more, ?_, ?_,
          by simp, List.forall_mem_append.2 ⟨fun c hc => isIdle_of_isZero (hzeros c hc), hfraction⟩,
          by simp [himage], by rwa [himage]⟩
        · calc cs = cs.takeWhile isZero ++ '.' :: rest := by
                rw [← hrest, List.takeWhile_append_dropWhile]
            _ = cs.takeWhile isZero ++ '.' :: (rest.takeWhile isDigit ++ (unit ++ more)) := by
                rw [← hmore, List.takeWhile_append_dropWhile]
            _ = _ := by simp
        · simp only [List.length_append, List.length_cons]
          omega
    · cases h

end Sheetsmith.Value
