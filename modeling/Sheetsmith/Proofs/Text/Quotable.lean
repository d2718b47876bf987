import Sheetsmith.Proofs.Text.Lexing

namespace Sheetsmith.Text

/-- A text that may stand between two quotes of a kind: every such quote in it directly follows a
backslash, and it does not end with a backslash. -/
structure Quotable (quote : Char) (body : List Char) : Prop where
  escaped : ∀ front back, body = front ++ quote :: back → front.getLast? = some '\\'
  ends : body.getLast? ≠ some '\\'

section

variable {quote : Char}

/-- The reader ends a string at the first quote of its kind that does not directly follow a
backslash. It looks back by one character only, so a backslash that is itself escaped hides the
quote as well. -/
theorem takeQuoted_eq_some_iff {before : Char} {cs body after : List Char} :
    takeQuoted quote before cs = (body, some after) ↔
      cs = body ++ quote :: after ∧ (before :: body).getLast? ≠ some '\\' ∧
        ∀ front back, body = front ++ quote :: back → (before :: front).getLast? = some '\\' := by
  induction cs generalizing before body with
  | nil => simp [takeQuoted]
  | cons c cs ih =>
    rw [takeQuoted]
    split
    · next hclose =>
      obtain ⟨rfl, hbefore⟩ := hclose
      constructor
      · intro h
        obtain ⟨rfl, hafter⟩ := Prod.mk.inj h
        cases hafter
        exact ⟨rfl, by simpa using hbefore, fun front back heq => by simp at heq⟩
      · rintro ⟨heq, -, hfirst⟩
        cases body with
        | nil =>
          obtain ⟨-, rfl⟩ := List.cons.inj heq
          rfl
        | cons d body =>
          obtain ⟨rfl, -⟩ := List.cons.inj heq
          have hescaped := hfirst [] body rfl
          simp [hbefore] at hescaped
    · next hopen =>
      constructor
      · intro h
        obtain ⟨rfl, hafter⟩ := Prod.mk.inj h
        obtain ⟨hcs, hlast, hfirst⟩ := ih.1 (Prod.ext rfl hafter :
          takeQuoted quote c cs = ((takeQuoted quote c cs).1, some after))
        refine ⟨by rw [List.cons_append, ← hcs], by simpa using hlast, fun front back heq => ?_⟩
        cases front with
        | nil =>
          obtain ⟨rfl, -⟩ := List.cons.inj heq
          simpa using hopen
        | cons d front =>
          obtain ⟨rfl, hrest⟩ := List.cons.inj heq
          simpa using hfirst front back hrest
      · rintro ⟨heq, hlast, hfirst⟩
        cases body with
        | nil =>
          obtain ⟨rfl, -⟩ := List.cons.inj heq
          exact absurd ⟨rfl, by simpa using hlast⟩ hopen
        | cons d body =>
          obtain ⟨rfl, hcs⟩ := List.cons.inj heq
          have hrest := ih.2 ⟨hcs, by simpa using hlast, fun front back heq => by
            simpa using hfirst (c :: front) back (by rw [heq, List.cons_append])⟩
          rw [hrest]

/-- A string that was opened by a quote ends behind the longest text that may stand between its
quotes. What is in front of the string does not matter, since a quote hides nothing. -/
theorem takeQuoted_eq_some_iff_quotable (hquote : IsQuote quote) {cs body after : List Char} :
    takeQuoted quote quote cs = (body, some after) ↔
      cs = body ++ quote :: after ∧ Quotable quote body := by
  -- The opening quote is no backslash.
  have hne : quote ≠ '\\' := by
    rcases hquote with rfl | rfl <;> decide
  have hlast (front : List Char) :
      (quote :: front).getLast? = some '\\' ↔ front.getLast? = some '\\' := by
    rw [List.getLast?_cons]
    cases front.getLast? <;> simp [hne]
  simp only [takeQuoted_eq_some_iff, ne_eq, hlast]
  exact and_congr_right fun _ => ⟨fun ⟨hends, hescaped⟩ => ⟨hescaped, hends⟩,
    fun ⟨hescaped, hends⟩ => ⟨hends, hescaped⟩⟩

/-- A text may stand between two quotes exactly if the reader ends the string at the second one.
This is what is checked when a value is put into quotes. -/
theorem quotable_iff (hquote : IsQuote quote) {body : List Char} :
    Quotable quote body ↔ takeQuoted quote quote (body ++ [quote]) = (body, some []) := by
  rw [takeQuoted_eq_some_iff_quotable hquote]
  simp

end

end Sheetsmith.Text
