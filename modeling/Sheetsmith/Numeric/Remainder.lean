import Sheetsmith.Numeric.Binary

namespace Sheetsmith.Numeric

/-- The remainder of `x` by a positive whole number, the quotient cut off toward zero, with the sign
of `x`; an infinite value or one that is no number has none. The remainder is always representable,
so it is computed without rounding, on whole numbers. -/
def remainder (x : Float32) (divisor : Nat) : Float32 :=
  if !x.isFinite then 0 / 0
  else
    let bits := x.toBits.toNat
    let (significand, unit) := Format.single.parts bits
    let size : Float32 :=
      if 0 ≤ unit then Float32.ofNat (significand * Nat.pow 2 unit.toNat % divisor)
      else (Float32.ofNat (significand % (divisor * Nat.pow 2 unit.natAbs))).scaleB unit
    if bits / Nat.pow 2 31 = 1 then -size else size

/-- The remainder shifted into the range from zero up to the divisor. -/
def wrap (x : Float32) (divisor : Nat) : Float32 :=
  remainder (remainder x divisor + Float32.ofNat divisor) divisor

end Sheetsmith.Numeric
