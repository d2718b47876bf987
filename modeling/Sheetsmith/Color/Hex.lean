import Sheetsmith.Color.Basic

namespace Sheetsmith.Color

/-- The value of a hexadecimal digit. -/
def hexDigit? (c : Char) : Option Nat :=
  if '0' ≤ c ∧ c ≤ '9' then some (c.toNat - '0'.toNat)
  else if 'a' ≤ c ∧ c ≤ 'f' then some (c.toNat - 'a'.toNat + 10)
  else if 'A' ≤ c ∧ c ≤ 'F' then some (c.toNat - 'A'.toNat + 10)
  else none

/-- The byte that one digit stands for when it is written twice. -/
def doubledByte? (c : Char) : Option Nat :=
  (hexDigit? c).map (17 * ·)

/-- The byte written by two characters: two digits, or a plus sign and a digit. -/
def pairByte? (c d : Char) : Option Nat :=
  if c = '+' then hexDigit? d
  else do return 16 * (← hexDigit? c) + (← hexDigit? d)

/-- The colour that a row of digits denotes: three or four single digits, or three or four pairs,
the last for the opacity. -/
def readHex? : List Char → Option Color
  | [r, g, b] => do
    return ofBytes (← doubledByte? r) (← doubledByte? g) (← doubledByte? b) 255
  | [r, g, b, a] => do
    return ofBytes (← doubledByte? r) (← doubledByte? g) (← doubledByte? b) (← doubledByte? a)
  | [r, r', g, g', b, b'] => do
    return ofBytes (← pairByte? r r') (← pairByte? g g') (← pairByte? b b') 255
  | [r, r', g, g', b, b', a, a'] => do
    return ofBytes (← pairByte? r r') (← pairByte? g g') (← pairByte? b b') (← pairByte? a a')
  | _ => none

/-- The digits of a byte. -/
def byteDigits (n : Nat) : Char × Char :=
  (Nat.digitChar (n / 16), Nat.digitChar (n % 16))

/-- The shortest way to write three bytes: one digit each when both digits of every byte agree. -/
def shortestHex (red green blue : Nat) : String :=
  let (r, r') := byteDigits red
  let (g, g') := byteDigits green
  let (b, b') := byteDigits blue
  String.ofList <|
    if r = r' ∧ g = g' ∧ b = b' then ['#', r, g, b] else ['#', r, r', g, g', b, b']

/-- The shortest hexadecimal form of a colour, its opacity left out. -/
def hex (c : Color) : String :=
  shortestHex (channelByte c.red) (channelByte c.green) (channelByte c.blue)

/-- Whether nothing shines through the colour. -/
def isOpaque (c : Color) : Bool :=
  1 ≤ c.alpha

end Sheetsmith.Color
