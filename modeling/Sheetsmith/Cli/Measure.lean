import Sheetsmith.Numeric.Binary

namespace Sheetsmith.Cli

/-- The units of size from a thousand bytes on; each is 1024 times the one before. -/
def sizeUnits : List String :=
  ["KB", "MB", "GB", "TB", "PB", "EB", "ZB", "YB"]

/-- The size in the first unit that leaves at most 1024 of it, or in the last one. -/
def sizeIn (bytes scale : Nat) : List String → String
  | [] => ""
  | [unit] => Numeric.fixed 2 bytes scale ++ " " ++ unit
  | unit :: units =>
    if bytes ≤ 1024 * scale then Numeric.fixed 2 bytes scale ++ " " ++ unit
    else sizeIn bytes (1024 * scale) units

/-- A number of bytes with two places. -/
def readableSize (bytes : Nat) : String :=
  let size := Numeric.nearestDouble bytes
  if size < 1024 then Numeric.fixed 2 size 1 ++ " bytes" else sizeIn size 1024 sizeUnits

/-- The whole number nearest to a value that is not negative; a half goes up. -/
def roundUp (x : Float) : Nat :=
  x.round.toUInt64.toNat

/-- A span of time, given in nanoseconds. -/
def readableTime (nanos : Nat) : String :=
  let seconds : Float := (nanos / 1000000000).toFloat + (nanos % 1000000000).toFloat / 1000000000
  if 60 < seconds then
    let whole := roundUp seconds
    toString (whole / 60) ++ "m " ++ toString (whole % 60) ++ "s"
  else if 1 < seconds then
    let (num, den) := Numeric.quotientOf seconds
    Numeric.fixed 3 num den ++ " s"
  else if 0.001 < seconds then toString (roundUp (seconds * 1000)) ++ " ms"
  else toString (roundUp (seconds * 1000000)) ++ " us"

/-- The share of one size in another, in whole percent. -/
def percentOf (part whole : Nat) : Nat :=
  if whole = 0 then 100 else roundUp (part.toFloat / whole.toFloat * 100)

end Sheetsmith.Cli
