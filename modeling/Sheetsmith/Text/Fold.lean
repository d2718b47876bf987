namespace Sheetsmith.Text

/-- The text with `A` to `Z` in lower case, all other characters as they are. Property names,
keywords and vendor names are compared in this form. -/
def fold (cs : List Char) : List Char :=
  cs.map Char.toLower

/-- `fold` on strings. -/
def folded (s : String) : String :=
  String.ofList (fold s.toList)

/-- The letter that a character stands for when the case of no script counts: two characters outside
ASCII stand for letters of ASCII then, the long s and the Kelvin sign. -/
def plainLetter (c : Char) : Char :=
  if c = 'ſ' then 's' else if c = '\u212a' then 'k' else c.toLower

/-- Whether two texts are equal up to the case of ASCII letters. -/
def sameFold (a b : String) : Bool :=
  fold a.toList == fold b.toList

/-- Whether a text starts with `word`, up to the case of ASCII letters. -/
def startsWithFold (word cs : List Char) : Bool :=
  fold word == fold (cs.take word.length)

end Sheetsmith.Text
