import Sheetsmith.Numeric.Fixed

namespace Sheetsmith.Numeric

/-- The widths of the two fields of a binary format. -/
structure Format where
  fractionBits : Nat
  exponentBits : Nat
deriving DecidableEq

namespace Format

/-- The format of 32 bits. -/
def single : Format := ⟨23, 8⟩

/-- The format of 64 bits. -/
def double : Format := ⟨52, 11⟩

/-- The exponent of the least positive value, which is the least unit in the last place. -/
def leastUnit (format : Format) : Int :=
  2 - Nat.pow 2 (format.exponentBits - 1) - format.fractionBits

/-- The pattern of the infinite value; the pattern of every finite value is below it. -/
def infinity (format : Format) : Nat :=
  (Nat.pow 2 format.exponentBits - 1) * Nat.pow 2 format.fractionBits

/-- The value of the pattern of a finite number, without its sign: a whole number and the exponent
of the unit that it counts. -/
def parts (format : Format) (bits : Nat) : Nat × Int :=
  let field := bits / Nat.pow 2 format.fractionBits % Nat.pow 2 format.exponentBits
  let fraction := bits % Nat.pow 2 format.fractionBits
  if field = 0 then (fraction, format.leastUnit)
  else (fraction + Nat.pow 2 format.fractionBits, format.leastUnit + field - 1)

end Format

/-- A finite value that is not negative as an exact quotient of whole numbers. -/
def quotientOf (x : Float) : Nat × Nat :=
  let (significand, unit) := Format.double.parts x.toBits.toNat
  if 0 ≤ unit then (significand * Nat.pow 2 unit.toNat, 1)
  else (significand, Nat.pow 2 unit.natAbs)

/-- The greatest exponent with `2 ^ exponent ≤ num / den`, for two positive numbers. -/
def binaryExponent (num den : Nat) : Int :=
  let guess : Int := (num.log2 : Int) - den.log2
  let fits :=
    if 0 ≤ guess then den * Nat.pow 2 guess.toNat ≤ num else den ≤ num * Nat.pow 2 guess.natAbs
  if fits then guess else guess - 1

/-- The multiple of `2 ^ unit` nearest to `num / den`, counted in that unit. -/
def roundTo (unit : Int) (num den : Nat) : Nat :=
  if 0 ≤ unit then roundHalfEven num (den * Nat.pow 2 unit.toNat)
  else roundHalfEven (num * Nat.pow 2 unit.natAbs) den

/-- The pattern of the value nearest to `num / den`; a half goes to the even pattern, and what is
too large becomes infinite. The quotient is rounded once, from its exact value, so digits far behind
the last place still decide a half.

The positive values of a format in increasing order have the patterns `1, 2, 3, …`. A value whose
unit in the last place is `2 ^ e` is `m * 2 ^ e`, and raising `e` by one moves the pattern on by
`2 ^ fractionBits`. So the pattern is a multiple of that number plus `m`, and an `m` that rounding
has carried over into the next power of two still names the right value. -/
def nearestBits (format : Format) (num den : Nat) : Nat :=
  if num = 0 then 0
  else
    let unit := max format.leastUnit (binaryExponent num den - format.fractionBits)
    let bits :=
      (unit - format.leastUnit).toNat * Nat.pow 2 format.fractionBits + roundTo unit num den
    min bits format.infinity

end Sheetsmith.Numeric
