namespace Sheetsmith.Text

/-- The parts of a text between the occurrences of `sep`, the empty ones included. There is always
at least one part. -/
def splitAtEach (sep : Char) : List Char → List (List Char)
  | [] => [[]]
  | c :: cs =>
    if c = sep then [] :: splitAtEach sep cs
    else match splitAtEach sep cs with
      | [] => [[c]]
      | part :: parts => (c :: part) :: parts

/-- The texts before and after the first occurrence of `sep`, if there is one. -/
def splitAtFirst? (sep : Char) : List Char → Option (List Char × List Char)
  | [] => none
  | c :: cs =>
    if c = sep then some ([], cs)
    else (splitAtFirst? sep cs).map fun (before, after) => (c :: before, after)

/-- The text before the first occurrence of `sep`, or all of it. -/
def beforeFirst (sep : Char) (cs : List Char) : List Char :=
  cs.takeWhile (· != sep)

end Sheetsmith.Text
