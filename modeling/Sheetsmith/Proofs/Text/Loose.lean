import Mathlib.Data.List.Induction
import Sheetsmith.Proofs.Text.Lexing

namespace Sheetsmith.Text

/-- The characters around which blanks are cut off. -/
abbrev IsJoint (c : Char) : Prop :=
  c = ',' ∨ c = ':'

/-- A text behind which blanks do not matter. -/
def LooseEnd (cs : List Char) : Prop :=
  cs = [] ∨ ∃ c, IsJoint c ∧ cs.getLast? = some c

/-- A text in front of which blanks do not matter. -/
def LooseStart (cs : List Char) : Prop :=
  cs = [] ∨ ∃ c, IsJoint c ∧ cs.head? = some c

theorem looseEnd_nil : LooseEnd [] := .inl rfl

theorem looseStart_nil : LooseStart [] := .inl rfl

theorem looseEnd_concat (cs : List Char) {c : Char} (hc : IsJoint c) : LooseEnd (cs ++ [c]) :=
  .inr ⟨c, hc, List.getLast?_concat⟩

theorem looseStart_cons {c : Char} (hc : IsJoint c) (cs : List Char) : LooseStart (c :: cs) :=
  .inr ⟨c, hc, rfl⟩

/-- A condition on characters that does not see a blank beside a joint or at the
start of the text. -/
structure IgnoresBlanks (ok : List Char → Char → Prop) : Prop where
  blank : ∀ before b, isBlank b = true → ok before b
  insert : ∀ before b pre c, isBlank b = true → LooseEnd before ∨ LooseStart (pre ++ [c]) →
    (ok (before ++ b :: pre) c ↔ ok (before ++ pre) c)

/-- Two conditions that do not see blanks beside joints do not see them together either. -/
theorem IgnoresBlanks.and {ok ok' : List Char → Char → Prop} (h : IgnoresBlanks ok)
    (h' : IgnoresBlanks ok') : IgnoresBlanks fun pre c => ok pre c ∧ ok' pre c where
  blank before b hb := ⟨h.blank before b hb, h'.blank before b hb⟩
  insert before b pre c hb hloose := by
    rw [h.insert before b pre c hb hloose, h'.insert before b pre c hb hloose]

theorem not_isQuote_of_isBlank {b : Char} (hb : isBlank b = true) : ¬ IsQuote b := by
  rintro (rfl | rfl) <;> exact absurd hb (by decide)

theorem not_isQuote_of_isJoint {c : Char} (hc : IsJoint c) : ¬ IsQuote c := by
  rcases hc with rfl | rfl <;> decide

/-- A string that is still open was opened by a quote, and the place remembers the last character of
the text, which may hide the next quote. -/
theorem Place.of_after_eq_inside {cs : List Char} {quote before : Char}
    (h : Place.outside.after cs = .inside quote before) :
    IsQuote quote ∧ cs.getLast? = some before := by
  induction cs using List.reverseRecOn generalizing before with
  | nil => cases h
  | append_singleton cs c ih =>
    rw [Place.after_append, Place.after_cons, Place.after_nil] at h
    rw [List.getLast?_concat]
    cases hplace : Place.outside.after cs with
    | outside =>
      rw [hplace, Place.next] at h
      split at h
      · next hquote =>
        cases h
        exact ⟨hquote, rfl⟩
      · cases h
    | inside quote' before' =>
      rw [hplace, Place.next] at h
      split at h
      · cases h
      · cases h
        exact ⟨(ih hplace).1, rfl⟩

/-- A blank neither opens nor closes a string. -/
private theorem next_blank_eq_outside_iff (cs : List Char) {b : Char} (hb : isBlank b = true) :
    (Place.outside.after cs).next b = .outside ↔ Place.outside.after cs = .outside := by
  cases hplace : Place.outside.after cs with
  | outside => simp [Place.next, not_isQuote_of_isBlank hb]
  | inside quote before =>
    obtain ⟨hquote, -⟩ := Place.of_after_eq_inside hplace
    have hbq : b ≠ quote := fun h => not_isQuote_of_isBlank hb (h ▸ hquote)
    simp [Place.next, hbq]

/-- Behind a blank that does not matter the text goes on as without it. -/
private theorem next_blank_next {cs ds : List Char} {b d : Char} (hb : isBlank b = true)
    (hloose : LooseEnd cs ∨ LooseStart (d :: ds)) :
    ((Place.outside.after cs).next b).next d = (Place.outside.after cs).next d := by
  cases hplace : Place.outside.after cs with
  | outside => simp [Place.next, not_isQuote_of_isBlank hb]
  | inside quote before =>
    obtain ⟨hquote, hlast⟩ := Place.of_after_eq_inside hplace
    have hbq : b ≠ quote := fun h => not_isQuote_of_isBlank hb (h ▸ hquote)
    have hslash : b ≠ '\\' := by
      rintro rfl
      exact absurd hb (by decide)
    rcases hloose with (rfl | ⟨c, hc, hc'⟩) | (hnil | ⟨c, hc, hc'⟩)
    · cases hplace
    · -- The text before the blank ends in a joint, which hides no quote.
      have hbefore : before ≠ '\\' := by
        rw [hlast] at hc'
        cases hc'
        rcases hc with rfl | rfl <;> decide
      simp [Place.next, hbq, hslash, hbefore]
    · cases hnil
    · -- The text behind the blank starts with a joint, which is no quote.
      cases hc'
      have hdq : d ≠ quote := fun h => not_isQuote_of_isJoint hc (h ▸ hquote)
      simp [Place.next, hbq, hdq]

/-- A blank beside a joint, or at one of the ends of a text, comes and goes freely: strings stay
closed, and the condition on the other characters does not see it. Inside a word or a string this
would not hold. -/
theorem IgnoresBlanks.closed_insert_iff {ok : List Char → Char → Prop} (hok : IgnoresBlanks ok)
    {cs ds : List Char} {b : Char} (hb : isBlank b = true) (hloose : LooseEnd cs ∨ LooseStart ds) :
    Closed ok (cs ++ b :: ds) ↔ Closed ok (cs ++ ds) := by
  have hhead : Place.outside.after cs = .outside → ¬ IsQuote b → ok cs b :=
    fun _ _ => hok.blank cs b hb
  have hcongr (place : Place) : Each ok place (cs ++ [b]) ds ↔ Each ok place cs ds := by
    apply each_congr
    intro pre c post heq
    rw [List.append_assoc, List.singleton_append]
    refine hok.insert cs b pre c hb ?_
    rcases hloose with hend | hnil | ⟨d, hd, hd'⟩
    · exact .inl hend
    · simp [hnil] at heq
    · refine .inr (.inr ⟨d, hd, ?_⟩)
      rw [← hd', heq]
      cases pre <;> rfl
  have hplace : ((Place.outside.after cs).next b).after ds = .outside ↔
      (Place.outside.after cs).after ds = .outside := by
    cases ds with
    | nil => exact next_blank_eq_outside_iff cs hb
    | cons d ds => rw [Place.after_cons, Place.after_cons, next_blank_next hb hloose]
  have heach : Each ok ((Place.outside.after cs).next b) (cs ++ [b]) ds ↔
      Each ok (Place.outside.after cs) cs ds := by
    rw [hcongr]
    cases ds with
    | nil => simp [Each]
    | cons d ds =>
      simp only [Each, next_blank_eq_outside_iff cs hb, next_blank_next hb hloose]
  constructor
  · rintro ⟨hclosed, hok'⟩
    rw [Place.after_append, Place.after_cons] at hclosed
    rw [each_append] at hok'
    refine ⟨?_, each_append.2 ⟨hok'.1, heach.1 hok'.2.2⟩⟩
    rw [Place.after_append]
    exact hplace.1 hclosed
  · rintro ⟨hclosed, hok'⟩
    rw [Place.after_append] at hclosed
    rw [each_append] at hok'
    refine ⟨?_, each_append.2 ⟨hok'.1, hhead, heach.2 hok'.2⟩⟩
    rw [Place.after_append, Place.after_cons]
    exact hplace.2 hclosed

section

variable {ok : List Char → Char → Prop} (hok : IgnoresBlanks ok)
include hok

/-- Any number of blanks behind a joint, or at the start of the text, comes and goes freely. The
text behind it may be any. -/
theorem IgnoresBlanks.closed_blanks_right_iff {cs blanks : List Char} (hcs : LooseEnd cs)
    (hblanks : AllBlank blanks) (ds : List Char) :
    Closed ok (cs ++ (blanks ++ ds)) ↔ Closed ok (cs ++ ds) := by
  induction blanks with
  | nil => rfl
  | cons b blanks ih =>
    rw [List.cons_append, hok.closed_insert_iff (hblanks b (by simp)) (.inl hcs)]
    exact ih fun c hc => hblanks c (by simp [hc])

/-- Any number of blanks in front of a joint, or at the end of the text, comes and goes freely. The
text in front of it may be any. -/
theorem IgnoresBlanks.closed_blanks_left_iff {ds blanks : List Char} (hds : LooseStart ds)
    (hblanks : AllBlank blanks) (cs : List Char) :
    Closed ok (cs ++ (blanks ++ ds)) ↔ Closed ok (cs ++ ds) := by
  induction blanks generalizing cs with
  | nil => rfl
  | cons b blanks ih =>
    have hsplit : cs ++ (b :: blanks ++ ds) = (cs ++ [b]) ++ (blanks ++ ds) := by simp
    rw [hsplit, ih (fun c hc => hblanks c (by simp [hc])), List.append_assoc,
      List.singleton_append, hok.closed_insert_iff (hblanks b (by simp)) (.inr hds)]

/-- A part between joints may be trimmed, in both directions: text that is closed with the trimmed
part is closed with the part as it was. The part itself may hold anything. -/
theorem IgnoresBlanks.closed_trim_iff {cs ds : List Char} (hcs : LooseEnd cs) (hds : LooseStart ds)
    (part : List Char) : Closed ok (cs ++ (part ++ ds)) ↔ Closed ok (cs ++ (trim part ++ ds)) := by
  obtain ⟨left, right, hleft, hright, heq⟩ := exists_trim part
  have hsplit : cs ++ (part ++ ds) = cs ++ (left ++ (trim part ++ (right ++ ds))) := by
    rw [congrArg (· ++ ds) heq]
    simp
  rw [hsplit, hok.closed_blanks_right_iff hcs hleft, ← List.append_assoc,
    hok.closed_blanks_left_iff hds hright, List.append_assoc]

/-- The parts of a list with commas may all be trimmed at once, behind any front that ends in a
joint. -/
theorem IgnoresBlanks.closed_map_trim_iff {cs : List Char} (hcs : LooseEnd cs)
    (parts : List (List Char)) :
    Closed ok (cs ++ [','].intercalate (parts.map trim)) ↔
      Closed ok (cs ++ [','].intercalate parts) := by
  induction parts generalizing cs with
  | nil => rfl
  | cons part parts ih =>
    cases parts with
    | nil => simpa using (hok.closed_trim_iff hcs looseStart_nil part).symm
    | cons next parts =>
      have hcut := hok.closed_trim_iff hcs
        (looseStart_cons (.inl rfl) ([','].intercalate (next :: parts))) part
      have hend : LooseEnd (cs ++ (trim part ++ [','])) := by
        rw [← List.append_assoc]
        exact looseEnd_concat _ (.inl rfl)
      have hnext := ih hend
      simp only [List.map_cons, List.intercalate_cons_cons, List.append_assoc,
        List.singleton_append] at hnext hcut ⊢
      rw [hnext, hcut]

/-- Blanks may be put behind the commas of a list, as the spread layout does, or left out, as the
compressed one does. -/
theorem IgnoresBlanks.closed_gap_iff (cs : List Char) {gap : List Char} (hgap : AllBlank gap)
    (parts : List (List Char)) :
    Closed ok (cs ++ (',' :: gap).intercalate parts) ↔
      Closed ok (cs ++ [','].intercalate parts) := by
  induction parts generalizing cs with
  | nil => rfl
  | cons part parts ih =>
    cases parts with
    | nil => simp
    | cons next parts =>
      have hend : LooseEnd (cs ++ (part ++ [','])) := by
        rw [← List.append_assoc]
        exact looseEnd_concat _ (.inl rfl)
      have hcut := hok.closed_blanks_right_iff hend hgap ((',' :: gap).intercalate (next :: parts))
      have hnext := ih (cs ++ (part ++ [',']))
      simp only [List.intercalate_cons_cons, List.append_assoc, List.nil_append,
        List.cons_append] at hnext hcut ⊢
      rw [hcut, hnext]

end

/-- Whether a comment opens is not changed by blanks beside a comma or a colon: neither of them is a
slash or a star. -/
theorem ignoresBlanks_noComment : IgnoresBlanks NoComment where
  blank before b hb := by
    rintro ⟨-, rfl⟩
    exact absurd hb (by decide)
  insert before b pre c hb hloose := by
    cases hpre : pre.getLast? with
    | some d => simp [NoComment, List.getLast?_append, List.getLast?_cons, hpre]
    | none =>
      obtain rfl : pre = [] := List.getLast?_eq_none_iff.1 hpre
      have hslash : b ≠ '/' := by
        rintro rfl
        exact absurd hb (by decide)
      rcases hloose with (rfl | ⟨d, hd, hd'⟩) | (hnil | ⟨d, hd, hd'⟩)
      · simp [NoComment, hslash]
      · have hd'' : d ≠ '/' := by rcases hd with rfl | rfl <;> decide
        simp [NoComment, hslash, hd', hd'']
      · cases hnil
      · cases hd'
        have hstar : c ≠ '*' := by rcases hd with rfl | rfl <;> decide
        simp [NoComment, hstar]

end Sheetsmith.Text
