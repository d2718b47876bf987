import Sheetsmith.Proofs.Value.Spelling

namespace Sheetsmith.Value

open Text

/-- The words of a value. -/
def words (value : List Char) : List (List Char) :=
  runs (!isBlank ·) value

namespace Spelling

variable {l : Spelling}

theorem Valid.isBlank_text (hl : l.Valid) : ∀ c ∈ l.text, isBlank c = false := by
  have hdigits {cs : List Char} (h : ∀ c ∈ cs, c.isDigit = true) : ∀ c ∈ cs, isBlank c = false :=
    fun c hc => (isWordChar_of_isDigit (h c hc)).2.2.1
  intro c hc
  simp only [text, unsigned, List.mem_append] at hc
  rcases hc with hc | hc | hc | hc
  · rcases hl.sign with hsign | hsign | hsign <;> rw [hsign] at hc
    · cases hc
    · obtain rfl := List.mem_singleton.1 hc
      decide
    · obtain rfl := List.mem_singleton.1 hc
      decide
  · exact hdigits hl.whole c hc
  · rcases hl.fraction with ⟨hfraction, -⟩ | ⟨digits, hfraction, -, hall⟩ <;> rw [hfraction] at hc
    · cases hc
    · rcases List.mem_cons.1 hc with rfl | hc
      · decide
      · exact hdigits hall c hc
  · rcases hl.unit with hunit | hunit | ⟨hunit, -, -⟩
    · rw [hunit] at hc
      obtain rfl := List.mem_singleton.1 hc
      decide
    · exact (isBlank_of_isAlpha (hunit.spelled.2 c hc)).1
    · rw [hunit] at hc
      cases hc

theorem Valid.text_ne_nil (hl : l.Valid) : l.text ≠ [] := by
  rw [text]
  exact List.append_ne_nil_of_right_ne_nil _ hl.unsigned_ne_nil

/-- A length in front of a blank or of the end is a word. -/
theorem Valid.isRun_text (hl : l.Valid) {rest : List Char} (hrest : StartsBlank rest) :
    IsRun (!isBlank ·) l.text rest :=
  ⟨hl.text_ne_nil, fun c hc => by rw [hl.isBlank_text c hc]; rfl,
    fun c hc => by rw [hrest c hc]; rfl⟩

/-- What is left of a length without its leading zeros. The sign stays. -/
theorem Valid.withoutZeros_text (hl : l.Valid) :
    withoutZeros l.text = l.sign ++ l.unsigned.dropWhile isZero := by
  rcases hl.sign with hsign | hsign | hsign
  · obtain ⟨c, cs, hcons, hc⟩ := hl.unsigned_head
    have hne : c ≠ '+' ∧ c ≠ '-' := by
      rcases hc with hc | rfl
      · exact ⟨by rintro rfl; exact absurd hc (by decide), by rintro rfl; exact absurd hc (by decide)⟩
      · decide
    rw [text, hsign, hcons, List.nil_append, List.nil_append, withoutZeros]
    · exact fun cs' heq => hne.1 (List.cons.inj heq).1
    · exact fun cs' heq => hne.2 (List.cons.inj heq).1
  · rw [text, hsign]
    rfl
  · rw [text, hsign]
    rfl

/-- A text has no other digit than zero if neither of its halves has. -/
theorem isNought_append (front back : List Char) :
    isNought (front ++ back) = (isNought front && isNought back) :=
  List.all_append

/-- Only the number decides whether a length is zero. -/
theorem Valid.isNought_text (hl : l.Valid) :
    isNought l.text = (isNought l.whole && isNought l.fraction) := by
  have hsign : isNought l.sign = true := by
    rcases hl.sign with hsign | hsign | hsign <;> rw [hsign] <;> decide
  have hunit : isNought l.unit = true := by
    rcases hl.unit with hunit | hunit | ⟨hunit, -, -⟩
    · rw [hunit]
      decide
    · refine List.all_eq_true.2 fun c hc => ?_
      rw [(isBlank_of_isAlpha (hunit.spelled.2 c hc)).2.2]
      rfl
    · rw [hunit]
      rfl
  rw [text, unsigned, isNought_append, isNought_append, isNought_append, hsign, hunit,
    Bool.true_and, Bool.and_true]

theorem isNought_of_isZero {cs : List Char} (h : ∀ c ∈ cs, isZero c = true) : isNought cs = true :=
  List.all_eq_true.2 fun c hc => by rw [h c hc, Bool.or_true]

/-- A length that has lost its leading zeros is the same length. -/
theorem Valid.lengthKey_dropped (hl : l.Valid) : lengthKey l.dropped.text = lengthKey l.text := by
  by_cases hfound : l.whole ≠ [] ∧ (∀ c ∈ l.whole, isZero c = true) ∧ l.fraction ≠ []
  · have heq : l.dropped = { l with whole := [] } := if_pos hfound
    have hdropped := hl.dropped
    have hzero := hfound.2.1
    have hrest : l.unsigned.dropWhile isZero = l.dropped.unsigned.dropWhile isZero := by
      rw [unsigned, unsigned, heq, List.dropWhile_append_of_pos hzero]
      rfl
    have hnought : isNought l.dropped.text = isNought l.text := by
      rw [hl.isNought_text, hdropped.isNought_text, isNought_of_isZero hzero, heq]
      rfl
    rw [lengthKey, lengthKey, hnought, hl.withoutZeros_text, hdropped.withoutZeros_text, hrest, heq]
  · rw [Spelling.dropped, if_neg hfound]

/-- A zero that has lost its unit is the same length. -/
theorem Valid.lengthKey_bared (hl : l.Valid) : lengthKey l.bared.text = lengthKey l.text := by
  by_cases hfound : (∀ c ∈ l.whole, isZero c = true) ∧ l.fraction = [] ∧ IsUnit l.unit
  · have heq : l.bared = { l with whole := ['0'], unit := [] } := if_pos hfound
    have hnought : isNought l.text = true := by
      rw [hl.isNought_text, isNought_of_isZero hfound.1, hfound.2.1]
      rfl
    have hnought' : isNought l.bared.text = true := by
      rw [hl.bared.isNought_text, heq, hfound.2.1]
      rfl
    rw [lengthKey, lengthKey, if_pos hnought, if_pos hnought']
  · rw [Spelling.bared, if_neg hfound]

end Spelling

theorem isLength_text {l : Spelling} (hl : l.Valid) : IsLength l.text :=
  ⟨l, hl, rfl⟩

/-- A pass that replaces the matches of `body` does to each length what `f` does to its spelling. -/
structure Respells (body : List Char → Option Nat) (image : List Char → List Char)
    (f : Spelling → Spelling) : Prop where
  valid : ∀ l, l.Valid → (f l).Valid
  sign : ∀ l, (f l).sign = l.sign
  same : ∀ l, l.Valid → lengthKey (f l).text = lengthKey l.text
  zero : ∀ cs, (∀ c ∈ cs.head?, isZero c = false) → body cs = none
  unsigned : ∀ l rest, l.Valid → StartsBlank rest →
    (body (l.unsigned ++ rest) = some l.unsigned.length ∧ (f l).unsigned = image l.unsigned) ∨
      (body (l.unsigned ++ rest) = none ∧ (f l).unsigned = l.unsigned)

theorem isLead_of_isBlank {c : Char} (h : isBlank c = true) : isLead '.' c = true := by
  have hpoint : (c == '.') = false := by
    rw [beq_eq_false_iff_ne]
    rintro rfl
    exact absurd h (by decide)
  rw [isLead, (isBlank_apart h).1, hpoint]
  rfl

namespace Respells

variable {body : List Char → Option Nat} {image : List Char → List Char} {f : Spelling → Spelling}
  (h : Respells body image f)
include h

/-- A blank is passed over, and a length may start behind it. -/
theorem rewriteFrom_blank {c : Char} (hc : isBlank c = true) (rest : List Char) :
    rewriteFrom '.' body image true (c :: rest) = c :: rewriteFrom '.' body image true rest := by
  have hnone : body (c :: rest) = none := h.zero _ (by rintro d ⟨⟩; exact (isBlank_apart hc).2.2.2)
  rw [rewriteFrom_of_none hnone, rewriteFrom_false, isLead_of_isBlank hc]

/-- A text that starts with a blank still does after the pass. -/
theorem startsBlank {cs : List Char} (hcs : StartsBlank cs) :
    StartsBlank (rewriteFrom '.' body image true cs) := by
  cases cs with
  | nil =>
    rw [rewriteFrom]
    exact hcs
  | cons c cs =>
    have hc := hcs c rfl
    rw [h.rewriteFrom_blank hc]
    rintro d ⟨⟩
    exact hc

/-- What a pass does to a length does not depend on what stands behind it. A blank or the end of the
text has to be behind it, as what stands there could belong to the length. -/
theorem rewriteFrom_text {l : Spelling} (hl : l.Valid) {rest : List Char} (hrest : StartsBlank rest) :
    rewriteFrom '.' body image true (l.text ++ rest) =
      (f l).text ++ rewriteFrom '.' body image true rest := by
  rw [hl.rewriteFrom_text hrest h.zero (h.unsigned l rest hl hrest), Spelling.text, h.sign,
    List.append_assoc]

/-- A pass over a value takes its lengths one by one. The induction is on the words of the value.
Blanks are not compared here. -/
theorem words_rewriteFrom_eq {value : List Char} (hvalue : ∀ w ∈ words value, IsLength w) :
    words (rewriteFrom '.' body image true value) =
      (words value).map fun w => (f (.ofText w)).text := by
  unfold words at hvalue ⊢
  induction value using runs_induction (p := (!isBlank ·)) with
  | nil =>
    rw [rewriteFrom, runs_nil]
    rfl
  | skip c cs hc ih =>
    have hblank : isBlank c = true := by simpa using hc
    rw [runs_cons_of_false hc] at hvalue
    rw [h.rewriteFrom_blank hblank, runs_cons_of_false hc, runs_cons_of_false hc]
    exact ih hvalue
  | word word rest hword ih =>
    rw [runs_append_of_isRun hword] at hvalue ⊢
    obtain ⟨l, hl, rfl⟩ := hvalue word (by simp)
    have hrest : StartsBlank rest := fun c hc => by simpa using hword.ends c hc
    rw [h.rewriteFrom_text hl hrest,
      runs_append_of_isRun ((h.valid l hl).isRun_text (h.startsBlank hrest)),
      ih fun w hw => hvalue w (by simp [hw]), List.map_cons, hl.ofText_text]

/-- The words are lengths after the pass as before, and the same ones but for their spelling. That
they are lengths afterwards lets the next pass be treated in the same way. -/
theorem words_rewriteFrom {value : List Char} (hvalue : ∀ w ∈ words value, IsLength w) :
    (∀ w ∈ words (rewriteFrom '.' body image true value), IsLength w) ∧
      (words (rewriteFrom '.' body image true value)).map lengthKey =
        (words value).map lengthKey := by
  rw [h.words_rewriteFrom_eq hvalue, List.forall_mem_map, List.map_map]
  constructor
  · intro w hw
    obtain ⟨l, hl, rfl⟩ := hvalue w hw
    rw [hl.ofText_text]
    exact isLength_text (h.valid l hl)
  · refine List.map_congr_left fun w hw => ?_
    obtain ⟨l, hl, rfl⟩ := hvalue w hw
    rw [Function.comp_apply, hl.ofText_text, h.same l hl]

end Respells

end Sheetsmith.Value
