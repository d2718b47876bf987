import Sheetsmith.Numeric.Binary
import Sheetsmith.Text.Fold

namespace Sheetsmith.Numeric

/-- The number `digits · 10 ^ exponent`, or its negative. -/
structure Decimal where
  negative : Bool
  digits : Nat
  exponent : Int
deriving DecidableEq

/-- What a text that is a number denotes. -/
inductive Number where
  | finite (value : Decimal)
  | infinite (negative : Bool)
  | notANumber
deriving DecidableEq

/-- The value of a row of decimal digits. -/
def digitsValue (cs : List Char) : Nat :=
  cs.foldl (fun value c => 10 * value + (c.toNat - '0'.toNat)) 0

/-- The sign in front of a text: whether it is a minus, and the text behind it. -/
def takeSign : List Char → Bool × List Char
  | '-' :: cs => (true, cs)
  | '+' :: cs => (false, cs)
  | cs => (false, cs)

/-- An exponent that makes up the whole text: nothing, or `e`, an optional sign and digits. -/
def readExponent? : List Char → Option Int
  | [] => some 0
  | c :: cs =>
    if c.toLower = 'e' then
      let (negative, digits) := takeSign cs
      if digits.isEmpty || !digits.all Char.isDigit then none
      else
        let value : Int := digitsValue digits
        some (if negative then -value else value)
    else none

/-- Digits with at most one point and an optional exponent, as the whole text. -/
def readDigits? (negative : Bool) (cs : List Char) : Option Decimal :=
  let whole := cs.takeWhile Char.isDigit
  let rest := cs.dropWhile Char.isDigit
  let (fraction, rest) :=
    match rest with
    | '.' :: rest => (rest.takeWhile Char.isDigit, rest.dropWhile Char.isDigit)
    | _ => ([], rest)
  if whole.isEmpty && fraction.isEmpty then none
  else (readExponent? rest).map fun exponent =>
    ⟨negative, digitsValue (whole ++ fraction), exponent - fraction.length⟩

/-- The number that a whole text denotes: an optional sign and either one of the words `inf`,
`infinity` and `nan` in any case, or digits with at most one point, at least one digit in all, and
an optional exponent. -/
def readNumber? (cs : List Char) : Option Number :=
  let (negative, body) := takeSign cs
  let word := String.ofList (Text.fold body)
  if word = "inf" || word = "infinity" then some (.infinite negative)
  else if word = "nan" then some .notANumber
  else (readDigits? negative body).map .finite

namespace Decimal

/-- The power of ten just above the absolute value. -/
def magnitude (d : Decimal) : Int :=
  (Nat.toDigits 10 d.digits).length + d.exponent

/-- Beyond this power of ten every value is too large, and below its inverse every value too small,
for both binary formats. -/
def magnitudeLimit : Int := 400

/-- The pattern of bits of the nearest absolute value in a binary format. -/
def sizeBits (format : Format) (d : Decimal) : Nat :=
  if d.magnitude < -magnitudeLimit then 0
  else if magnitudeLimit < d.magnitude then if d.digits = 0 then 0 else format.infinity
  else if 0 ≤ d.exponent then nearestBits format (d.digits * Nat.pow 10 d.exponent.toNat) 1
  else nearestBits format d.digits (Nat.pow 10 d.exponent.natAbs)

/-- The nearest value of double precision. -/
def toFloat (d : Decimal) : Float :=
  let size := Float.ofBits (.ofNat (d.sizeBits .double))
  if d.negative then -size else size

/-- The nearest value of single precision. -/
def toFloat32 (d : Decimal) : Float32 :=
  let size := Float32.ofBits (.ofNat (d.sizeBits .single))
  if d.negative then -size else size

end Decimal

namespace Number

/-- The nearest value of double precision. -/
def toFloat : Number → Float
  | .finite d => d.toFloat
  | .infinite negative => if negative then -(1 / 0) else 1 / 0
  | .notANumber => 0 / 0

/-- The nearest value of single precision. -/
def toFloat32 : Number → Float32
  | .finite d => d.toFloat32
  | .infinite negative => if negative then -(1 / 0) else 1 / 0
  | .notANumber => 0 / 0

end Number

end Sheetsmith.Numeric
