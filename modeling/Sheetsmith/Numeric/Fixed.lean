namespace Sheetsmith.Numeric

/-- The whole number nearest to a quotient; a half goes to the even neighbour. -/
def roundHalfEven (num den : Nat) : Nat :=
  let quotient := num / den
  let twice := 2 * (num % den)
  if twice < den ∨ twice = den ∧ quotient % 2 = 0 then quotient else quotient + 1

/-- A quotient with the given number of decimal places. The last one is rounded from the exact
value, and a half goes to the even neighbour. -/
def fixed (places num den : Nat) : String :=
  let scaled := roundHalfEven (num * Nat.pow 10 places) den
  let fraction := toString (scaled % Nat.pow 10 places)
  toString (scaled / Nat.pow 10 places) ++ "." ++
    String.ofList (List.replicate (places - fraction.length) '0') ++ fraction

/-- The whole number of double precision that is nearest to a whole number. -/
def nearestDouble (n : Nat) : Nat :=
  if n < Nat.pow 2 53 then n
  else
    let unit := Nat.pow 2 (n.log2 - 52)
    roundHalfEven n unit * unit

end Sheetsmith.Numeric
