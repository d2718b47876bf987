import Sheetsmith.Value.Color
import Sheetsmith.Value.Length
import Sheetsmith.Vendor.Table

namespace Sheetsmith.Gradient

open Sheetsmith.Text

/-- The name of a gradient function, as a word of its own that no hyphen precedes, and the character
before it. Names do not regard ASCII case. -/
def call (function : String) : Recognizer :=
  afterBoundary '-' fun cs =>
    if startsWithFold function.toList cs && wordEnds (cs.drop function.length) then
      some function.length
    else none

/-- Whether a value uses a gradient function. -/
def uses (function : String) (value : String) : Bool :=
  occurs (call function) value.toList

/-- The value with a vendor's form of the function, and with the old spelling of its direction. -/
def withForm (function form : String) (value : String) : String :=
  let renamed := replaceAll (call function)
    (fun hit => hit.take (hit.length - function.length) ++ form.toList) value.toList
  String.ofList (replaceLiteral "to right" "left" (replaceLiteral "to bottom" "top" renamed))

/-- One of the functions `rgb`, `rgba`, `hsl` and `hsla` with its values. -/
def functionColor? (cs : List Char) : Option Nat :=
  match cs with
  | c :: d :: e :: rest =>
    let model := [c, d, e].map plainLetter
    if model = ['r', 'g', 'b'] ∨ model = ['h', 's', 'l'] then
      let alpha := (rest.takeWhile fun x => x.toLower == 'a').take 1
      let blanks := (rest.drop alpha.length).takeWhile isBlank
      match rest.drop (alpha.length + blanks.length) with
      | '(' :: values =>
        let inner := values.takeWhile (· ≠ ')')
        if inner.isEmpty ∨ (values.drop inner.length).isEmpty then none
        else some (3 + alpha.length + blanks.length + 1 + inner.length + 1)
      | _ => none
    else none
  | _ => none

/-- `#` and hexadecimal digits. -/
def hexColor? : List Char → Option Nat
  | '#' :: rest =>
    let digits := (rest.takeWhile Value.isHexDigit).length
    if digits = 0 then none else some (digits + 1)
  | _ => none

/-- A word. -/
def wordColor? (cs : List Char) : Option Nat :=
  let word := (cs.takeWhile isWordChar).length
  if word = 0 then none else some word

/-- Blanks, digits and an optional unit: where on the gradient line a colour stands. -/
def stopPosition? (cs : List Char) : Option Nat :=
  let blanks := (cs.takeWhile isBlank).length
  let digits := ((cs.drop blanks).takeWhile isDigit).length
  if blanks = 0 ∨ digits = 0 then none
  else
    match cs.drop (blanks + digits) with
    | '%' :: _ => some (blanks + digits + 1)
    | rest => some (blanks + digits + (Value.unit? rest).getD 0)

/-- A colour with its position on the gradient line. -/
def colorStop : Recognizer := fun _ cs =>
  let positioned (color : Option Nat) : Option Nat := do
    let n ← color
    return n + (← stopPosition? (cs.drop n))
  positioned (functionColor? cs) <|> positioned (hexColor? cs) <|> positioned (wordColor? cs)

/-- The colour of a match of `colorStop`. -/
def stopColor (hit : List Char) : List Char :=
  ((hit.reverse.dropWhile (!isBlank ·)).dropWhile isBlank).reverse

/-- A hexadecimal colour with its opacity in front, in capitals. A colour of neither three nor six
digits only gets the capitals. -/
def filterColor (color : List Char) : List Char :=
  let expanded :=
    match color.drop 1 with
    | [r, g, b] => ['#', 'F', 'F', r, r, g, g, b, b]
    | digits => if digits.length = 6 then ['#', 'F', 'F'] ++ digits else color
  expanded.map Char.toUpper

/-- Whether a value runs from side to side. -/
def isHorizontal (value : List Char) : Bool :=
  (runs isWordChar value).any fun word => fold word == "left".toList || fold word == "right".toList

/-- The filter that draws the gradient of a value, when its first and last positioned colours are
hexadecimal. -/
def filter? (value : String) : Option String := do
  let colors := (findAll colorStop value.toList).map stopColor
  let first ← colors.head?
  let last ← colors.getLast?
  if first.head? = some '#' ∧ last.head? = some '#' then
    let direction := if isHorizontal value.toList then "1" else "0"
    return "progid:DXImageTransform.Microsoft.gradient( startColorstr='" ++
      String.ofList (filterColor first) ++ "', endColorstr='" ++
      String.ofList (filterColor last) ++ "',GradientType=" ++ direction ++ ")"
  else none

end Sheetsmith.Gradient
