import Sheetsmith.Text.Pattern

namespace Sheetsmith.Value

open Sheetsmith.Text

/-- The keyword pairs and single keywords with what replaces them, in the order of replacement. A
single keyword is replaced behind a blank only, since the first word of a position may stand for
either axis. -/
def positionWords : List (String × String) := [
  ("top left", "0 0"), ("top center", "50% 0"), ("top right", "100% 0"),
  ("center left", "0 50%"), ("center center", "50% 50%"), ("center right", "100% 50%"),
  ("bottom left", "0 100%"), ("bottom center", "50% 100%"), ("bottom right", "100% 100%"),
  (" top", " 0"), (" left", " 0"), (" center", " 50%"), (" right", " 100%"),
  (" bottom", " 100%")]

/-- The value with its position keywords as percentages. -/
def shortenPosition (value : List Char) : List Char :=
  positionWords.foldl (fun value (word, image) => replaceLiteral word image value) value

end Sheetsmith.Value
