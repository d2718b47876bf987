import Sheetsmith.Proofs.Color.Hexadecimal
import Sheetsmith.Proofs.Value.Parts

namespace Sheetsmith.Value

open Text

/-- The text up to the next colour. -/
def gap : List Part → List Char
  | .kept text :: _ => text
  | _ => []

/-- The text up to the next colour is what a value goes on with. -/
theorem mem_head?_flatMap_old {c : Char} {parts : List Part} (h : c ∈ (gap parts).head?) :
    c ∈ (parts.flatMap Part.old).head? := by
  cases parts with
  | nil => cases h
  | cons part parts =>
    cases part with
    | color token hex => cases h
    | kept text =>
      obtain ⟨rest, rfl⟩ : ∃ rest, text = c :: rest := List.head?_eq_some_iff.1 h
      rfl

/-- No character that would go on with a colour stands right behind it. Behind a name and behind
digits the search has seen to that already, but for a hyphen; behind a call it looks at nothing. -/
def Guarded : List Part → Prop
  | [] => True
  | .kept _ :: parts => Guarded parts
  | .color token _ :: parts =>
    (∀ c ∈ (gap parts).head?, if token.getLast? = some ')' then continues c = false else c ≠ '-') ∧
      Guarded parts

instance decidableGuarded : (parts : List Part) → Decidable (Guarded parts)
  | [] => .isTrue trivial
  | .kept _ :: parts => decidableGuarded parts
  | .color _ _ :: parts =>
    @instDecidableAnd _ _ (gap parts).head?.decidableForallMem (decidableGuarded parts)

/-- No colour that is replaced is the end of a longer word. -/
def Detached : List Part → Prop
  | [] => True
  | .color _ _ :: parts => Detached parts
  | .kept text :: parts =>
    (∀ token hex, parts.head? = some (.color token hex) → token.head? ≠ some '#' →
      ∀ c ∈ text.getLast?, c ≠ '-' ∧ c ≠ '#') ∧ Detached parts

/-- Colours that are written by hexadecimal digits and do not fuse with what is behind them. -/
def Spaced : List Part → Prop
  | [] => True
  | .kept _ :: parts => (∀ more, parts.head? ≠ some (.kept more)) ∧ Spaced parts
  | .color _ hex :: parts =>
    Color.IsHex hex ∧ (∀ c ∈ (gap parts).head?, continues c = false) ∧ Spaced parts

namespace Spaced

variable {parts : List Part}

/-- The last parts of a value are spaced when all are. -/
theorem of_append {front back : List Part} (h : Spaced (front ++ back)) : Spaced back := by
  induction front with
  | nil => exact h
  | cons part front ih =>
    cases part with
    | kept text => exact ih h.2
    | color token hex => exact ih h.2.2

/-- The output goes on with the text up to the next colour, or with the `#` of that colour. -/
theorem head_new (h : Spaced parts) (hgap : ∀ c ∈ (gap parts).head?, continues c = false) :
    ∀ c ∈ (parts.flatMap Part.new).head?, continues c = false := by
  have hcolor {token hex : List Char} {parts : List Part} (h : Spaced (.color token hex :: parts)) :
      ∀ c ∈ ((.color token hex :: parts).flatMap Part.new).head?, continues c = false := by
    obtain ⟨digits, rfl, -⟩ := h.1
    rintro c ⟨⟩
    decide
  cases parts with
  | nil => simp
  | cons part parts =>
    cases part with
    | color token hex => exact hcolor h
    | kept text =>
      cases text with
      | cons c text => exact hgap
      | nil =>
        cases parts with
        | nil => simp [Part.new]
        | cons next parts =>
          cases next with
          | kept more => exact absurd rfl (h.1 more)
          | color token hex =>
            have hnext := hcolor h.2
            exact hnext

end Spaced

/-- The output has one lexeme for each colour, and those of the text between them. -/
theorem Spaced.lexemes_new {parts : List Part} (h : Spaced parts) :
    lexemes (parts.flatMap Part.new) = parts.flatMap fun part => lexemes part.new := by
  induction parts with
  | nil => rfl
  | cons part parts ih =>
    rw [List.flatMap_cons, List.flatMap_cons]
    have happend (hrest : Spaced parts)
        (hhead : ∀ b ∈ (parts.flatMap Part.new).head?, continues b = false) :
        lexemes (part.new ++ parts.flatMap Part.new) =
          lexemes part.new ++ parts.flatMap fun part => lexemes part.new := by
      rw [← ih hrest]
      exact List.splitBy_append fun a _ b hb => by simp [joins, hhead b hb]
    cases part with
    | color token hex => exact happend h.2.2 (h.2.2.head_new h.2.1)
    | kept text =>
      refine happend h.2 (h.2.head_new ?_)
      cases parts with
      | nil => simp [gap]
      | cons next parts =>
        cases next with
        | kept more => exact absurd rfl (h.1 more)
        | color token hex => simp [gap]

namespace Recolors

variable {read : Color.Reader} {before : Option Char} {parts : List Part}

/-- The parts of a value are spaced when nothing behind a colour would go on with it. Names and
digits that go on are no tokens, so this is a matter of calls and of hyphens. -/
theorem spaced (h : Recolors read before parts) (hread : read.WritesHex)
    (hguarded : Guarded parts) : Spaced parts := by
  induction h with
  | nil => trivial
  | kept hne hnext hparts ih => exact ⟨hnext, ih hguarded⟩
  | @color before token hex parts hne htoken hquote hanswer hparts ih =>
    obtain ⟨answer, hanswer, rfl⟩ := hanswer
    refine ⟨hread _ _ hanswer, fun c hc => ?_, ih hguarded.2⟩
    have hguard := hguarded.1 c hc
    split at hguard
    · exact hguard
    · next hlast =>
      have hends := (htoken.ends hquote).resolve_left hlast
      obtain ⟨rest, hrest⟩ := List.head?_eq_some_iff.1 (mem_head?_flatMap_old hc)
      rw [hrest] at hends
      exact continues_eq_false (by simpa [wordEnds] using hends) hguard

/-- The value goes on with the text up to the next colour, or with that colour. -/
theorem head_old (h : Recolors read before parts) {c : Char}
    (hc : c ∈ (parts.flatMap Part.old).head?) :
    c ∈ (gap parts).head? ∨ c = '#' ∨ isWordChar c = true := by
  cases h with
  | nil => cases hc
  | kept hne hnext hparts =>
    obtain ⟨d, text, rfl⟩ := List.exists_cons_of_ne_nil hne
    exact .inl hc
  | color hne htoken hquote hanswer hparts =>
    obtain ⟨d, token, rfl⟩ := List.exists_cons_of_ne_nil hne
    cases hc
    rcases htoken.starts hquote hne with hhash | ⟨-, d, hd, hword⟩
    · cases hhash
      exact .inr (.inl rfl)
    · cases hd
      exact .inr (.inr hword)

/-- Where no colour is the end of a longer word, the value has the lexemes of its parts. -/
theorem lexemes_old (h : Recolors read before parts) (hguarded : Guarded parts)
    (hdetached : Detached parts) :
    lexemes (parts.flatMap Part.old) = parts.flatMap fun part => lexemes part.old := by
  induction h with
  | nil => rfl
  | @kept before text parts hne hnext hparts ih =>
    rw [List.flatMap_cons, List.flatMap_cons, ← ih hguarded hdetached.2]
    refine List.splitBy_append fun a ha b hb => ?_
    cases hparts with
    | nil => cases hb
    | kept => exact absurd rfl (hnext _)
    | @color _ token hex parts hne htoken hquote hanswer hparts =>
      have hhead : token.head? = some b := by
        obtain ⟨c, token, rfl⟩ := List.exists_cons_of_ne_nil hne
        exact hb
      by_cases hhash : token.head? = some '#'
      · rw [hhead] at hhash
        cases hhash
        exact Bool.and_false _
      · obtain ⟨hstarts, -⟩ := (htoken.starts hquote hne).resolve_left hhash
        have ha : text.getLast? = some a := ha
        rw [ha] at hstarts
        obtain ⟨hhyphen, hmark⟩ := hdetached.1 token hex rfl hhash a ha
        simp [joins, continues_eq_false (by simpa [wordStarts] using hstarts) hhyphen, hmark]
  | @color before token hex parts hne htoken hquote hanswer hparts ih =>
    rw [List.flatMap_cons, List.flatMap_cons, ← ih hguarded.2 hdetached]
    refine List.splitBy_append fun a ha b hb => ?_
    by_cases hlast : token.getLast? = some ')'
    · rw [Option.mem_def, Part.old, hlast] at ha
      cases ha
      rfl
    · have hends := (htoken.ends hquote).resolve_left hlast
      obtain ⟨rest, hrest⟩ := List.head?_eq_some_iff.1 hb
      rw [hrest] at hends
      have hhyphen : b ≠ '-' := by
        rintro rfl
        rcases hparts.head_old hb with hgap | hhash | hword
        · have hguard := hguarded.1 _ hgap
          rw [if_neg hlast] at hguard
          exact hguard rfl
        · cases hhash
        · revert hword
          decide
      simp [joins, continues_eq_false (by simpa [wordEnds] using hends) hhyphen]

end Recolors

end Sheetsmith.Value
