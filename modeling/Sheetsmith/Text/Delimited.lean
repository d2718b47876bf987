namespace Sheetsmith.Text

/-- The body of the string whose opening quote was just passed, and the text behind its closing
quote, if it has one: the first quote of its own kind that does not directly follow a backslash.
`before` is the character in front of the text. -/
def takeQuoted (quote before : Char) : List Char → List Char × Option (List Char)
  | [] => ([], none)
  | c :: cs =>
    if c = quote ∧ before ≠ '\\' then ([], some cs)
    else
      let (body, after) := takeQuoted quote c cs
      (c :: body, after)

/-- The text of a string as it was written, given its body and whether it was closed. -/
def quotedText (quote : Char) (body : List Char) (closed : Bool) : List Char :=
  quote :: body ++ if closed then [quote] else []

/-- The text up to and with the first `*/`, and what is behind it. `afterStar` tells that a star
stands in front of the text. -/
def takeComment? (afterStar : Bool) : List Char → Option (List Char × List Char)
  | [] => none
  | c :: cs =>
    if afterStar ∧ c = '/' then some ([c], cs)
    else (takeComment? (c == '*') cs).map fun (text, after) => (c :: text, after)

theorem length_takeQuoted_le (quote before : Char) (cs : List Char) :
    ((takeQuoted quote before cs).2.getD []).length ≤ cs.length := by
  induction cs generalizing before with
  | nil => simp [takeQuoted]
  | cons c cs ih =>
    rw [takeQuoted]
    split
    · simp
    · exact Nat.le_succ_of_le (ih c)

theorem length_takeComment?_le {afterStar : Bool} {cs text after : List Char}
    (h : takeComment? afterStar cs = some (text, after)) : after.length ≤ cs.length := by
  induction cs generalizing afterStar text after with
  | nil => simp [takeComment?] at h
  | cons c cs ih =>
    rw [takeComment?] at h
    split at h
    · obtain ⟨-, rfl⟩ := Prod.mk.inj (Option.some.inj h)
      simp
    · obtain ⟨⟨text', after'⟩, hrest, heq⟩ := Option.map_eq_some_iff.1 h
      obtain ⟨-, rfl⟩ := Prod.mk.inj heq
      exact Nat.le_succ_of_le (ih hrest)

end Sheetsmith.Text
