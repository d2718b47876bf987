import Sheetsmith.Text.Blank
import Sheetsmith.Text.Delimited
import Sheetsmith.Text.Pattern
import Sheetsmith.Text.Quoted

namespace Sheetsmith.Usage

open Sheetsmith.Text

/-- The names in a text: the maximal runs of name characters. -/
def names (cs : List Char) : List String :=
  (runs isNameChar cs).map String.ofList

/-- A quote that opens a string literal. -/
def isQuote (c : Char) : Bool :=
  c == '"' || c == '\x27'

/-- The literal that is joined to the one before: behind `+` or `.`, with blanks around it, its
quote and the text behind the quote. -/
def joinedLiteral? (cs : List Char) : Option (Char × List Char) :=
  match cs.dropWhile isBlank with
  | operator :: rest =>
    if operator = '+' ∨ operator = '.' then
      match rest.dropWhile isBlank with
      | quote :: after => if isQuote quote then some (quote, after) else none
      | [] => none
    else none
  | [] => none

theorem length_joinedLiteral?_lt {cs after : List Char} {quote : Char}
    (h : joinedLiteral? cs = some (quote, after)) : after.length < cs.length := by
  unfold joinedLiteral? at h
  split at h
  · rename_i operator rest hcs
    have hlong : (operator :: rest).length ≤ cs.length := by
      rw [← hcs]
      exact (List.dropWhile_sublist isBlank).length_le
    split at h
    · split at h
      · rename_i quote' after' hrest
        have hshort : (quote' :: after').length ≤ rest.length := by
          rw [← hrest]
          exact (List.dropWhile_sublist isBlank).length_le
        split at h
        · obtain ⟨-, rfl⟩ := Prod.mk.inj (Option.some.inj h)
          simp only [List.length_cons] at hlong hshort
          omega
        · simp at h
      · simp at h
    · simp at h
  · simp at h

/-- The content of the literal whose quote was just passed, with the literals joined to it, and the
text behind. -/
def takeLiteral (quote : Char) (cs : List Char) : List Char × List Char :=
  match _h : takeQuoted quote quote cs with
  | (body, none) => (body, [])
  | (body, some rest) =>
    match _hjoined : joinedLiteral? rest with
    | none => (body, rest)
    | some (next, after) =>
      let (more, rest) := takeLiteral next after
      (body ++ more, rest)
termination_by cs.length
decreasing_by
  have hrest := length_takeQuoted_le quote quote cs
  simp only [_h, Option.getD_some] at hrest
  have hafter := length_joinedLiteral?_lt _hjoined
  omega

theorem length_takeLiteral_le (quote : Char) (cs : List Char) :
    (takeLiteral quote cs).2.length ≤ cs.length := by
  fun_induction takeLiteral quote cs with
  | case1 quote cs body h => simp
  | case2 quote cs body rest h hjoined =>
    have hrest := length_takeQuoted_le quote quote cs
    simpa [h] using hrest
  | case3 quote cs body rest h next after hjoined more rest' heq ih =>
    have hrest := length_takeQuoted_le quote quote cs
    simp only [h, Option.getD_some] at hrest
    have hafter := length_joinedLiteral?_lt hjoined
    simp only [heq] at ih
    simp only
    omega

/-- The contents of all string literals of a text. -/
def literals (cs : List Char) : List (List Char) :=
  match cs with
  | [] => []
  | c :: rest =>
    if isQuote c then
      let literal := takeLiteral c rest
      literal.1 :: literals literal.2
    else literals rest
termination_by cs.length
decreasing_by
  all_goals simp_wf
  have := length_takeLiteral_le c rest
  omega

/-- `<` and the name of a tag. -/
def tag : Recognizer := fun _ cs =>
  match cs with
  | '<' :: rest =>
    let n := (rest.takeWhile isWordChar).length
    if n = 0 then none else some (n + 1)
  | _ => none

/-- The names of the tags in a text. -/
def tagNames (cs : List Char) : List String :=
  (findAll tag cs).map fun hit => String.ofList (hit.drop 1)

/-- The names inside literals, then the names of the tags. -/
def literalNames (cs : List Char) : List String :=
  (literals cs).flatMap names ++ tagNames cs

/-- Which names of a project file count as used. -/
inductive ScanStrategy where
  /-- Every name. -/
  | safe
  /-- The names in string literals and of tags. -/
  | bestEffort
deriving DecidableEq

namespace ScanStrategy

/-- The strategy that a text names. -/
def ofText? (text : String) : Option ScanStrategy :=
  match folded (trimmed text) with
  | "safe" => some .safe
  | "best" | "best-effort" => some .bestEffort
  | _ => none

/-- What is said about a text that names no strategy. -/
def unknownMessage (text : String) : String :=
  "invalid scan strategy " ++ quoted text ++ ", expected \"safe\" or \"best\""

/-- The names that count as used by a text. -/
def tokens (strategy : ScanStrategy) (text : String) : List String :=
  match strategy with
  | .safe => names text.toList
  | .bestEffort => literalNames text.toList

end ScanStrategy

end Sheetsmith.Usage
