import Sheetsmith.Text.Letter
import Sheetsmith.Text.Number
import Sheetsmith.Text.Mark

namespace Sheetsmith.Text

/-- Connecting punctuation. -/
def isConnector (c : Char) : Bool :=
  [0x5F, 0x203F, 0x2040, 0x2054, 0xFE33, 0xFE34, 0xFE4D, 0xFE4E, 0xFE4F, 0xFF3F].contains c.toNat

/-- The zero-width joiner and non-joiner. -/
def isJoiner (c : Char) : Bool :=
  c.toNat == 0x200C || c.toNat == 0x200D

/-- Letters inside circles and squares. -/
def isEnclosedLetter (c : Char) : Bool :=
  inRanges [(0x24B6, 0x24E9), (0x1F130, 0x1F149), (0x1F150, 0x1F169), (0x1F170, 0x1F189)] c

/-- A character that joins its neighbours into one word. -/
def isWordChar (c : Char) : Bool :=
  isLetter c || isDigit c || isConnector c || isMark c || isNumeral c || isJoiner c ||
    isEnclosedLetter c

/-- A character of a name in a project file. -/
def isNameChar (c : Char) : Bool :=
  isLetter c || isNumber c || c == '_' || c == '-'

/-- Whether no word character follows, so that a word may end here. -/
def wordEnds : List Char → Bool
  | [] => true
  | c :: _ => !isWordChar c

/-- Whether no word character stands before, so that a word may start here. -/
def wordStarts : Option Char → Bool
  | none => true
  | some c => !isWordChar c

end Sheetsmith.Text
