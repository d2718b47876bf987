import Sheetsmith.Color.Hex
import Sheetsmith.Color.Named
import Sheetsmith.Numeric.Decimal
import Sheetsmith.Text.Blank
import Sheetsmith.Text.Pattern

namespace Sheetsmith.Color

/-- The reading of a colour came to a stop. That a text is no colour is an ordinary answer and none
of these. -/
inductive Fault where
  /-- The last bytes of an angle, as many as a unit has, start inside a character. -/
  | tornCharacter
deriving DecidableEq

/-- A number together with whether it was a percentage. -/
structure Amount where
  value : Float32
  isPercent : Bool

/-- The number that a text denotes. -/
def readFloat? (cs : List Char) : Option Float32 :=
  (Numeric.readNumber? cs).map (·.toFloat32)

/-- A percentage, or a plain number divided by `whole`. -/
def readAmount? (whole : Float32) (cs : List Char) : Option Amount :=
  match cs.getLast? with
  | some '%' => (readFloat? cs.dropLast).map fun x => ⟨x / 100, true⟩
  | _ => (readFloat? cs).map fun x => ⟨x / whole, false⟩

/-- Moves the last `n` bytes of a text, given in reverse, in front of `taken`. The answer is the text
that remains and the text that was moved; a text of fewer bytes has none. -/
def splitLast? (taken : List Char) : (n : Nat) → (reversed : List Char) →
    Except Fault (Option (List Char × List Char))
  | 0, rest => .ok (some (rest.reverse, taken))
  | _ + 1, [] => .ok none
  | n + 1, c :: rest =>
    if c.utf8Size ≤ n + 1 then splitLast? (c :: taken) (n + 1 - c.utf8Size) rest
    else .error .tornCharacter

/-- What is in front of a unit at the end of the text, the unit in any case. The unit is sought in
the last bytes of the text, as many as it has itself. -/
def stripUnit? (unit : String) (cs : List Char) : Except Fault (Option (List Char)) := do
  return (← splitLast? [] unit.length cs.reverse).bind fun (rest, tail) =>
    if Text.sameFold (String.ofList tail) unit then some rest else none

/-- The units of an angle with what they make of a number, in the order they are tried. -/
def angleUnits : List (String × (Float32 → Float32)) :=
  [("deg", id), ("grad", (· * 360 / 400)), ("rad", (· * 57.2957795130823208767981548141051703)),
    ("turn", (· * 360))]

/-- An angle in degrees: a number with one of the units that are still to be tried, or alone. -/
def readAngleWith? (cs : List Char) :
    List (String × (Float32 → Float32)) → Except Fault (Option Float32)
  | [] => .ok (readFloat? cs)
  | (unit, degrees) :: units => do
    match (← stripUnit? unit cs).bind readFloat? with
    | some x => .ok (some (degrees x))
    | none => readAngleWith? cs units

/-- An angle in degrees. -/
def readAngle? (cs : List Char) : Except Fault (Option Float32) :=
  readAngleWith? cs angleUnits

/-- Two amounts of the same kind, each moved into the range from 0 to 1. -/
def sameKind? (x y : Option Amount) : Option (Float32 × Float32) := do
  let x ← x
  let y ← y
  if x.isPercent = y.isPercent then some (clampUnit x.value, clampUnit y.value) else none

/-- Three channels of the same kind. -/
def readRgb? (r g b : List Char) (alpha : Float32) : Option Color := do
  let r ← readAmount? 255 r
  let g ← readAmount? 255 g
  let b ← readAmount? 255 b
  if r.isPercent = g.isPercent ∧ g.isPercent = b.isPercent then
    some ⟨clampUnit r.value, clampUnit g.value, clampUnit b.value, alpha⟩
  else none

/-- An angle and two amounts of the same kind. -/
def readHue? (make : Float32 → Float32 → Float32 → Float32 → Color) (hue x y : List Char)
    (alpha : Float32) : Except Fault (Option Color) := do
  let hue ← readAngle? hue
  return do
    let (x, y) ← sameKind? (readAmount? 1 x) (readAmount? 1 y)
    return make (← hue) x y alpha

/-- The position on an opponent axis; the percentages from -100 to 100 cover -0.4 to 0.4. -/
def axis (x : Amount) : Float32 :=
  if x.isPercent then (x.value - -1) * ((0.4 - -0.4) / (1 - -1)) + -0.4 else x.value

/-- A lightness and two axes. -/
def readOklab? (l a b : List Char) (alpha : Float32) : Option Color := do
  let l ← readAmount? 1 l
  let a ← readAmount? 1 a
  let b ← readAmount? 1 b
  return ofOklab (atLeastZero l.value) (axis a) (axis b) alpha

/-- A lightness, a chroma and an angle. -/
def readOklch? (l c hue : List Char) (alpha : Float32) : Except Fault (Option Color) := do
  let hue ← readAngle? hue
  return do
    let l ← readAmount? 1 l
    let c ← readAmount? 1 c
    let chroma := if c.isPercent then c.value * 0.4 else c.value
    return ofOklch (atLeastZero l.value) (atLeastZero chroma) (← hue) alpha

/-- The function of a name, if there is one. -/
def readCall? (name : String) (x y z : List Char) (alpha : Float32) :
    Except Fault (Option Color) :=
  match name with
  | "rgb" | "rgba" => .ok (readRgb? x y z alpha)
  | "hsl" | "hsla" => readHue? ofHsl x y z alpha
  | "hwb" | "hwba" => readHue? ofHwb x y z alpha
  | "hsv" | "hsva" => readHue? ofHsv x y z alpha
  | "oklab" => .ok (readOklab? x y z alpha)
  | "oklch" => readOklch? x y z alpha
  | _ => .ok none

/-- Commas, slashes and ASCII blanks stand between the values of a function. -/
def isValueGap (c : Char) : Bool :=
  c == ',' || c == '/' || c == ' ' || c == '\t' || c == '\n' || c == '\x0c' || c == '\r'

/-- The values of a function. -/
def callValues (cs : List Char) : List (List Char) :=
  Text.runs (!isValueGap ·) cs

/-- A function with three values and an optional opacity. The opacity is looked at before the
values. -/
def readFunction? (name arguments : List Char) : Except Fault (Option Color) :=
  let name := Text.folded (String.ofList (Text.trimEnd name))
  match callValues arguments with
  | [x, y, z] => readCall? name x y z 1
  | [x, y, z, a] =>
    match readAmount? 1 a with
    | some a => readCall? name x y z (clampUnit a.value)
    | none => .ok none
  | _ => .ok none

/-- The colour of a name. -/
def readNamed? (name : String) : Option Color :=
  (named? name).map fun n => ofBytes (n / 65536) (n / 256 % 256) (n % 256) 255

/-- Reads a colour: hexadecimal digits, a name, or a function of three values and an optional
opacity. A text that is no colour gives `none`. The reading stops only where the bytes that would
hold the unit of an angle start inside a character. -/
def read? (text : String) : Except Fault (Option Color) :=
  let cs := Text.trim text.toList
  let name := String.ofList cs
  if Text.sameFold name "transparent" then .ok (some ⟨0, 0, 0, 0⟩)
  else if cs.head? = some '#' then .ok (readHex? cs.tail)
  else if cs.contains '(' ∧ cs.getLast? = some ')' then
    readFunction? (cs.takeWhile (· ≠ '(')) ((cs.dropWhile (· ≠ '(')).tail.dropLast)
  else .ok (readHex? cs <|> readNamed? name)

/-- A way to tell the shortest hexadecimal form of a text that is an opaque colour. Optimizing needs
no more than this of a colour. -/
abbrev Reader := String → Except Fault (Option String)

/-- The shortest hexadecimal form of a text that is an opaque colour. -/
def opaqueHex : Reader := fun text => do
  return (← read? text).bind fun color => if color.isOpaque then some color.hex else none

end Sheetsmith.Color
