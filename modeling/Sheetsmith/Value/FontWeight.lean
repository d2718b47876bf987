import Sheetsmith.Text.Blank
import Sheetsmith.Text.Pattern

namespace Sheetsmith.Value

open Sheetsmith.Text

/-- The number of a named weight, or the word itself. -/
def weightNumber (word : List Char) : List Char :=
  if fold word = "normal".toList then "400".toList
  else if fold word = "bold".toList then "700".toList
  else word

/-- The value with its named weights as numbers, trimmed. -/
def foldWeights (value : List Char) : List Char :=
  trim (replaceAll (run (!isBlank ·)) weightNumber value)

end Sheetsmith.Value
