import Sheetsmith.Color.Read
import Sheetsmith.Text.Pattern

namespace Sheetsmith.Value

open Sheetsmith.Text

/-- How many characters there are up to and with the quote that closes a string. A backslash takes
the character behind it along, which must not end the line. -/
def stringEnd? (quote : Char) : List Char → Option Nat
  | [] => none
  | '\\' :: [] => none
  | '\\' :: c :: cs => if c = '\n' then none else (stringEnd? quote cs).map (· + 2)
  | c :: cs => if c = quote then some 1 else (stringEnd? quote cs).map (· + 1)

/-- A hexadecimal digit. -/
def isHexDigit (c : Char) : Bool :=
  (Color.hexDigit? c).isSome

/-- Three to six hexadecimal digits that end with their word, behind a `#`. -/
def hexDigits? (cs : List Char) : Option Nat :=
  let n := (cs.takeWhile isHexDigit).length
  if 3 ≤ n ∧ n ≤ 6 ∧ wordEnds (cs.drop n) then some n else none

/-- A word and what follows it in parentheses, up to the first closing one. -/
def wordCall? (cs : List Char) : Option Nat :=
  let word := (cs.takeWhile isWordChar).length
  match cs.drop word with
  | '(' :: rest =>
    let inner := (rest.takeWhile (· ≠ ')')).length
    if word = 0 ∨ (rest.drop inner).isEmpty then none else some (word + 1 + inner + 1)
  | _ => none

/-- A word that names a colour when the case of no script counts. A reader of colours that knows the
names up to ASCII case finds no colour in a word with a long s or a Kelvin sign. -/
def colorName? (cs : List Char) : Option Nat :=
  let word := cs.takeWhile isWordChar
  if (Color.named? (String.ofList (word.map plainLetter))).isSome then some word.length else none

/-- A closed string, or something that may be a colour. Strings are found as well, so that nothing
inside them is taken for a colour. -/
def colorToken : Recognizer := fun before cs =>
  match cs with
  | '"' :: rest => (stringEnd? '"' rest).map (· + 1)
  | '\x27' :: rest => (stringEnd? '\x27' rest).map (· + 1)
  | '#' :: rest => (hexDigits? rest).map (· + 1)
  | _ => if wordStarts before then wordCall? cs <|> colorName? cs else none

/-- The shorter form of a token, if it is an opaque colour and has one. -/
def shorterColor (read : Color.Reader) (token : List Char) : Except Color.Fault (List Char) :=
  if token.head? = some '"' ∨ token.head? = some '\x27' then .ok token
  else do
    let text := String.ofList token
    match ← read text with
    | some hex => return if hex.utf8ByteSize < text.utf8ByteSize then hex.toList else token
    | none => return token

/-- The value with each colour in its shortest form. -/
def shortenColors (read : Color.Reader) (value : List Char) : Except Color.Fault (List Char) :=
  replaceAllM colorToken (shorterColor read) value

end Sheetsmith.Value
