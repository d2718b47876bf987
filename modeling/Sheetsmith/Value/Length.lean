import Sheetsmith.Text.Blank
import Sheetsmith.Text.Pattern

namespace Sheetsmith.Value

open Sheetsmith.Text

/-- The units of length; a percentage is told apart from them. -/
def lengthUnits : List String :=
  ["px", "em", "ex", "in", "cm", "mm", "pt", "pc"]

/-- How many characters the unit at the start of a text takes; units do not regard ASCII case. -/
def unit? (cs : List Char) : Option Nat :=
  (lengthUnits.find? fun unit => startsWithFold unit.toList cs).map (·.length)

/-- A unit that ends with its word. -/
def wholeUnit? (cs : List Char) : Option Nat :=
  (unit? cs).filter fun n => wordEnds (cs.drop n)

/-- A zero, possibly repeated. -/
def isZero (c : Char) : Bool :=
  c == '0'

/-- Zeros, a point, digits and a unit or `%`. -/
def zeroFraction? (cs : List Char) : Option Nat :=
  let zeros := (cs.takeWhile isZero).length
  match cs.drop zeros with
  | '.' :: rest =>
    let digits := (rest.takeWhile isDigit).length
    if zeros = 0 ∨ digits = 0 then none
    else
      match rest.drop digits with
      | '%' :: _ => some (zeros + 1 + digits + 1)
      | after => (wholeUnit? after).map (zeros + 1 + digits + ·)
  | _ => none

/-- A fraction with a zero in front of its point, and the character before it. -/
def leadingZero : Recognizer :=
  afterBoundary '.' zeroFraction?

/-- Zeros with a unit. -/
def zeroWithUnit? (cs : List Char) : Option Nat :=
  let zeros := (cs.takeWhile isZero).length
  if zeros = 0 then none else (wholeUnit? (cs.drop zeros)).map (zeros + ·)

/-- A zero with a unit, and the character before it. -/
def zeroUnit : Recognizer :=
  afterBoundary '.' zeroWithUnit?

/-- Splits off the character before a match of `leadingZero` or `zeroUnit`. -/
def splitLead : List Char → List Char × List Char
  | [] => ([], [])
  | c :: cs => if isZero c then ([], c :: cs) else ([c], cs)

/-- The match without the zeros in front of its point. -/
def dropZeros (hit : List Char) : List Char :=
  let (lead, number) := splitLead hit
  lead ++ number.dropWhile isZero

/-- The match with one zero for its number. -/
def bareZero (hit : List Char) : List Char :=
  (splitLead hit).1 ++ ['0']

/-- All lengths of a value shortened. -/
def shortenLengths (value : List Char) : List Char :=
  replaceAll zeroUnit bareZero (replaceAll leadingZero dropZeros value)

/-- Digits with an optional fraction, or a fraction alone: the number of characters. -/
def unsigned? (cs : List Char) : Option Nat :=
  let whole := (cs.takeWhile isDigit).length
  let fraction :=
    match cs.drop whole with
    | '.' :: rest => (rest.takeWhile isDigit).length
    | _ => 0
  if fraction = 0 then (if whole = 0 then none else some whole) else some (whole + 1 + fraction)

/-- A text that is one length: a bare `0`, or an unsigned number with a unit or `%`. -/
def isLength (cs : List Char) : Bool :=
  cs == ['0'] ||
    match unsigned? cs with
    | some n =>
      let rest := cs.drop n
      rest == ['%'] || unit? rest == some rest.length
    | none => false

/-- The sides of a box without those that repeat: the fourth when it equals the second, then the
third when it equals the first, then the second when it equals the first. -/
def collapseSides : List (List Char) → List (List Char)
  | [a, b, c, d] => if d = b then collapseThree a b c else [a, b, c, d]
  | [a, b, c] => collapseThree a b c
  | [a, b] => collapseTwo a b
  | parts => parts
where
  collapseThree (a b c : List Char) : List (List Char) :=
    if c = a then collapseTwo a b else [a, b, c]
  collapseTwo (a b : List Char) : List (List Char) :=
    if b = a then [a] else [a, b]

/-- The properties whose value is a list of up to four sides. -/
def boxProperties : List String :=
  ["margin", "padding", "border-width", "border-radius"]

/-- The value of a box property with repeated sides left out. A value that is not two to four
lengths stays as it is. -/
def collapseBox (value : List Char) : List Char :=
  let parts := runs (!isBlank ·) value
  if 2 ≤ parts.length ∧ parts.length ≤ 4 ∧ parts.all isLength then
    [' '].intercalate (collapseSides parts)
  else value

/-- Shortens the lengths in the value of a property. -/
def optimizeLengths (property : String) (value : List Char) : List Char :=
  let value := shortenLengths value
  if boxProperties.contains property then collapseBox value else value

end Sheetsmith.Value
