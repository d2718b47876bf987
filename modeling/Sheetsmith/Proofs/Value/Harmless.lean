import Sheetsmith.Proofs.Color.Forms
import Sheetsmith.Proofs.Value.Sides

namespace Sheetsmith.Value

open Text

/-- A character that opens no string, no hexadecimal colour and no call, and that stands for no
letter of another script. -/
def isHarmless (c : Char) : Bool :=
  c != '"' && c != '\x27' && c != '#' && c != '(' && c != 'ſ' && c != '\u212a'

/-- A text of harmless characters where each letter stands behind a letter or a digit. -/
structure IsPlain (before : Option Char) (cs : List Char) : Prop where
  harmless : ∀ c ∈ cs, isHarmless c = true
  first : ∀ c ∈ cs.head?, c.isAlpha = true → ∃ b ∈ before, isWordChar b = true
  joined : cs.IsChain fun a b => b.isAlpha = true → isWordChar a = true

theorem IsPlain.tail {before : Option Char} {c : Char} {rest : List Char}
    (h : IsPlain before (c :: rest)) : IsPlain (some c) rest :=
  ⟨fun d hd => h.harmless d (by simp [hd]),
    fun d hd halpha => ⟨c, rfl, h.joined.rel_head? hd halpha⟩, h.joined.tail⟩

/-- The two letters of other scripts that stand for an ASCII one are not harmless, so no other
letter comes up. -/
theorem isAlpha_of_plainLetter {c : Char} (hc : isHarmless c = true)
    (h : (plainLetter c).isAlpha = true) : c.isAlpha = true := by
  simp only [isHarmless, Bool.and_eq_true, bne_iff_ne, ne_eq] at hc
  rw [plainLetter, if_neg hc.1.2, if_neg hc.2] at h
  exact isAlpha_of_toLower h

theorem named?_eq_none {word : List Char}
    (h : ∀ c ∈ word.head?, isHarmless c = true ∧ c.isAlpha = false) :
    Color.named? (String.ofList (word.map plainLetter)) = none := by
  refine Option.eq_none_iff_forall_not_mem.2 fun n hn => ?_
  obtain ⟨hne, halpha⟩ := Color.isAlpha_of_named? hn
  rw [String.toList_ofList] at hne halpha
  cases word with
  | nil => exact hne rfl
  | cons c cs =>
    obtain ⟨hharmless, hc⟩ := h c rfl
    rw [isAlpha_of_plainLetter hharmless (halpha _ List.mem_cons_self)] at hc
    cases hc

/-- Nothing that could be a colour is found in plain text: a letter that starts a word would have to
stand behind something that is no word character. -/
theorem colorToken_of_isPlain {before : Option Char} {c : Char} {rest : List Char}
    (h : IsPlain before (c :: rest)) (n : Nat) : colorToken before (c :: rest) ≠ some (n + 1) := by
  have hharmless := h.harmless c (by simp)
  unfold colorToken
  split
  · next more heq =>
    rw [(List.cons.inj heq).1] at hharmless
    exact absurd hharmless (by decide)
  · next more heq =>
    rw [(List.cons.inj heq).1] at hharmless
    exact absurd hharmless (by decide)
  · next more heq =>
    rw [(List.cons.inj heq).1] at hharmless
    exact absurd hharmless (by decide)
  · split
    · next hstarts =>
      have hcall : wordCall? (c :: rest) = none := by
        unfold wordCall?
        dsimp only
        split
        · next more hdrop =>
          have hmem : '(' ∈ (c :: rest) := List.mem_of_mem_drop (by rw [hdrop]; simp)
          exact absurd (h.harmless '(' hmem) (by decide)
        · rfl
      -- Where a word starts, no letter stands.
      have hhead : ∀ d ∈ ((c :: rest).takeWhile isWordChar).head?,
          isHarmless d = true ∧ d.isAlpha = false := by
        intro d hd
        obtain rfl : d = c := by
          cases hc : isWordChar c <;> simp [hc] at hd
          exact hd.symm
        refine ⟨hharmless, Bool.eq_false_iff.2 fun halpha => ?_⟩
        obtain ⟨b, rfl, hb⟩ := h.first d rfl halpha
        simp [wordStarts, hb] at hstarts
      have hname : colorName? (c :: rest) = none := by
        unfold colorName?
        dsimp only
        rw [named?_eq_none hhead]
        rfl
      rw [hcall, hname]
      simp
    · simp

/-- Plain text has no colours to shorten, whatever the reader takes for a colour. -/
theorem shortenColors_of_isPlain (read : Color.Reader) {cs : List Char} (h : IsPlain none cs) :
    shortenColors read cs = .ok cs :=
  replaceAllM_eq_self (@pieces_eq_map_plain _ IsPlain
    (fun _ _ _ hquiet => ⟨colorToken_of_isPlain hquiet, hquiet.tail⟩) _ _ h)

theorem isHarmless_of_isDigit {c : Char} (h : c.isDigit = true) : isHarmless c = true := by
  have hc : c.toNat < 128 := by
    rw [isDigit_iff] at h
    omega
  revert h
  exact forall_ascii (P := fun c => c.isDigit = true → isHarmless c = true) (by decide) hc

theorem isHarmless_of_isAlpha {c : Char} (h : c.isAlpha = true) : isHarmless c = true := by
  have hc : c.toNat < 128 := by
    rw [isAlpha_iff, isUpper_iff, isLower_iff] at h
    omega
  revert h
  exact forall_ascii (P := fun c => c.isAlpha = true → isHarmless c = true) (by decide) hc

theorem isHarmless_of_isBlank {c : Char} (h : isBlank c = true) : isHarmless c = true := by
  have hcodes : ∀ n ∈ blankCodes, isHarmless (Char.ofNat n) = true := by decide
  have hcode := hcodes c.toNat (toNat_mem_blankCodes h)
  rwa [Char.ofNat_toNat] at hcode

namespace Spelling

variable {l : Spelling}

/-- The number of a length has no letters. So it can neither be a part of a weight nor of a colour's
name. -/
theorem Valid.number (hl : l.Valid) :
    (∀ c ∈ l.sign ++ (l.whole ++ l.fraction), c.isAlpha = false ∧ isHarmless c = true) ∧
      ∀ c ∈ (l.sign ++ (l.whole ++ l.fraction)).getLast?, isWordChar c = true := by
  have hdigit {c : Char} (h : c.isDigit = true) : c.isAlpha = false ∧ isHarmless c = true :=
    ⟨(isWordChar_of_isDigit h).2.2.2, isHarmless_of_isDigit h⟩
  have hsign : ∀ c ∈ l.sign, c.isAlpha = false ∧ isHarmless c = true := by
    rcases hl.sign with hsign | hsign | hsign <;> rw [hsign] <;>
      exact forall_mem_of_all (by decide)
  rcases hl.fraction with ⟨hfraction, hne⟩ | ⟨digits, hfraction, hne, hdigits⟩
  · rw [hfraction, List.append_nil]
    refine ⟨fun c hc => ?_, fun c hc => ?_⟩
    · exact (List.mem_append.1 hc).elim (hsign c) fun hc => hdigit (hl.whole c hc)
    · rw [List.getLast?_append_of_ne_nil _ hne] at hc
      exact (isWordChar_of_isDigit (hl.whole c (List.mem_of_getLast? hc))).1
  · rw [hfraction]
    refine ⟨fun c hc => ?_, fun c hc => ?_⟩
    · rcases List.mem_append.1 hc with hc | hc
      · exact hsign c hc
      · rcases List.mem_append.1 hc with hc | hc
        · exact hdigit (hl.whole c hc)
        · rcases List.mem_cons.1 hc with rfl | hc
          · decide
          · exact hdigit (hdigits c hc)
    · have hsplit : l.sign ++ (l.whole ++ '.' :: digits) = (l.sign ++ (l.whole ++ ['.'])) ++ digits := by
        simp
      rw [hsplit, List.getLast?_append_of_ne_nil _ hne] at hc
      exact (isWordChar_of_isDigit (hdigits c (List.mem_of_getLast? hc))).1

/-- The letters of a unit stand behind its number or behind each other. The number need not be
looked at again. -/
theorem Valid.isPlain_unit (hl : l.Valid) {rest : List Char} (hrest : IsPlain none rest) :
    (∀ c ∈ l.unit ++ rest, isHarmless c = true) ∧
      (l.unit ++ rest).IsChain fun a b => b.isAlpha = true → isWordChar a = true := by
  have hfirst (a c : Char) (hc : c ∈ rest.head?) (halpha : c.isAlpha = true) :
      isWordChar a = true := by
    obtain ⟨b, hb, -⟩ := hrest.first c hc halpha
    cases hb
  rcases hl.unit with hunit | hunit | ⟨hunit, -, -⟩
  · rw [hunit]
    exact ⟨List.forall_mem_cons.2 ⟨by decide, hrest.harmless⟩,
      List.isChain_cons.2 ⟨hfirst '%', hrest.joined⟩⟩
  · obtain ⟨hlength, halpha⟩ := hunit.spelled
    obtain ⟨a, b, hab⟩ := List.length_eq_two.1 hlength
    rw [hab] at halpha ⊢
    have ha := isWordChar_of_isAlpha (halpha a (by simp))
    refine ⟨fun c hc => ?_, ?_⟩
    · exact (List.mem_append.1 hc).elim (fun hc => isHarmless_of_isAlpha (halpha c hc))
        (hrest.harmless c)
    · exact List.isChain_cons_cons.2 ⟨fun _ => ha, List.isChain_cons.2 ⟨hfirst b, hrest.joined⟩⟩
  · rw [hunit]
    exact ⟨hrest.harmless, hrest.joined⟩

/-- A length in front of plain text. What comes behind it has a blank in front, so it needs nothing
of the length. -/
theorem Valid.isPlain_append (hl : l.Valid) {rest : List Char} (hrest : IsPlain none rest) :
    IsPlain none (l.text ++ rest) := by
  obtain ⟨hnumber, hlast⟩ := hl.number
  obtain ⟨hharmless, hjoined⟩ := hl.isPlain_unit hrest
  have hsplit : l.text ++ rest = (l.sign ++ (l.whole ++ l.fraction)) ++ (l.unit ++ rest) := by
    simp [text, unsigned]
  have hletters : (l.sign ++ (l.whole ++ l.fraction)).IsChain
      fun a b => b.isAlpha = true → isWordChar a = true := by
    refine List.Pairwise.isChain (List.pairwise_of_forall_mem_list fun a _ b hb halpha => ?_)
    rw [(hnumber b hb).1] at halpha
    cases halpha
  have hne : l.sign ++ (l.whole ++ l.fraction) ≠ [] := by
    rcases hl.fraction with ⟨-, hwhole⟩ | ⟨digits, hfraction, -⟩
    · simp [hwhole]
    · simp [hfraction]
  rw [hsplit]
  refine ⟨fun c hc => ?_, fun c hc halpha => ?_, ?_⟩
  · exact (List.mem_append.1 hc).elim (fun hc => (hnumber c hc).2) (hharmless c)
  · rw [List.head?_append_of_ne_nil _ hne] at hc
    rw [(hnumber c (List.mem_of_head? hc)).1] at halpha
    cases halpha
  · exact hletters.append hjoined fun a ha b _ _ => hlast a ha

end Spelling

/-- A value of lengths is plain, with any blanks between them. -/
theorem isPlain_of_isLength {value : List Char} (h : ∀ w ∈ words value, IsLength w) :
    IsPlain none value := by
  unfold words at h
  induction value using runs_induction (p := (!isBlank ·)) with
  | nil => exact ⟨by simp, by simp, .nil⟩
  | skip c cs hc ih =>
    have hblank : isBlank c = true := by simpa using hc
    rw [runs_cons_of_false hc] at h
    obtain ⟨hharmless, hfirst, hjoined⟩ := ih h
    refine ⟨List.forall_mem_cons.2 ⟨isHarmless_of_isBlank hblank, hharmless⟩, ?_, ?_⟩
    · rintro d ⟨⟩ halpha
      rw [(isBlank_apart hblank).2.2.1] at halpha
      cases halpha
    · refine List.isChain_cons.2 ⟨fun d hd halpha => ?_, hjoined⟩
      obtain ⟨b, hb, -⟩ := hfirst d hd halpha
      cases hb
  | word word rest hword ih =>
    rw [runs_append_of_isRun hword] at h
    obtain ⟨l, hl, rfl⟩ := h word (by simp)
    exact hl.isPlain_append (ih fun w hw => h w (by simp [hw]))

/-- A value of lengths has no words to shorten. Properties in which other words than colours are
replaced are left out. -/
theorem IsBoxValue.optimizeWords {value : String} (h : IsBoxValue value) (read : Color.Reader)
    {property : String} (hweight : ¬ (property = "font" ∨ property = "font-weight"))
    (hposition : property ≠ "background-position") :
    optimizeWords read property value = .ok value := by
  unfold Value.optimizeWords
  dsimp only
  rw [if_neg hweight, shortenColors_of_isPlain read (isPlain_of_isLength h.lengths)]
  simp only [if_neg hposition, bind, Except.bind, pure, Except.pure, String.ofList_toList, ite_self]

end Sheetsmith.Value
