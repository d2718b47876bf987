import Sheetsmith.Value.Color
import Sheetsmith.Value.FontWeight
import Sheetsmith.Value.Length
import Sheetsmith.Value.Position

namespace Sheetsmith.Value

/-- The properties whose values are not searched for colours: the word `black` may be part of the
name of a font. -/
def colorless : List String :=
  ["filter", "-ms-filter", "font", "font-family"]

/-- Shortens the keywords and colours of a value. -/
def optimizeWords (read : Color.Reader) (property value : String) :
    Except Color.Fault String := do
  let cs := value.toList
  let cs := if property = "font" ∨ property = "font-weight" then foldWeights cs else cs
  let cs ← if colorless.contains property then pure cs else shortenColors read cs
  let cs := if property = "background-position" then shortenPosition cs else cs
  return String.ofList cs

/-- Shortens the lengths of a value. -/
def optimizeUnits (property value : String) : String :=
  String.ofList (optimizeLengths property value.toList)

end Sheetsmith.Value
