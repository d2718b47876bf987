import Sheetsmith.Text.Fold
import Sheetsmith.Text.Word

namespace Sheetsmith.Text

/-- The number of characters of the match that starts at `cs`, if one does. `before` is the
character in front of the place, `none` at the start of the text; a match of no characters does not
count. -/
abbrev Recognizer := (before : Option Char) → (cs : List Char) → Option Nat

/-- A part of a text cut by a recognizer. -/
inductive Piece where
  /-- A character outside every match. -/
  | plain (c : Char)
  /-- The whole text of a match. -/
  | hit (text : List Char)
deriving DecidableEq

/-- The characters a piece stands for. -/
def Piece.chars : Piece → List Char
  | .plain c => [c]
  | .hit text => text

/-- The matches of a recognizer and the characters between them, in order. The places are tried from
left to right and a match that was found is passed over as a whole, so matches never overlap. -/
def pieces (recognize : Recognizer) (before : Option Char) (cs : List Char) : List Piece :=
  match cs with
  | [] => []
  | c :: rest =>
    match recognize before (c :: rest) with
    | some (n + 1) =>
      .hit (c :: rest.take n) :: pieces recognize (c :: rest.take n).getLast? (rest.drop n)
    | _ => .plain c :: pieces recognize (some c) rest
termination_by cs.length

/-- Cutting a text loses nothing. -/
theorem flatMap_chars_pieces (recognize : Recognizer) (before : Option Char) (cs : List Char) :
    (pieces recognize before cs).flatMap Piece.chars = cs := by
  fun_induction pieces recognize before cs with
  | case1 => rfl
  | case2 before c rest n h ih => simp [Piece.chars, ih]
  | case3 before c rest h ih => simp [Piece.chars, ih]

/-- The texts of all matches. -/
def findAll (recognize : Recognizer) (cs : List Char) : List (List Char) :=
  (pieces recognize none cs).filterMap fun
    | .plain _ => none
    | .hit text => some text

/-- Whether there is a match anywhere. -/
def occurs (recognize : Recognizer) (cs : List Char) : Bool :=
  (pieces recognize none cs).any fun
    | .plain _ => false
    | .hit _ => true

/-- The text with every match replaced by its image. -/
def replaceAll (recognize : Recognizer) (image : List Char → List Char) (cs : List Char) :
    List Char :=
  (pieces recognize none cs).flatMap fun
    | .plain c => [c]
    | .hit text => image text

/-- `replaceAll` for an image that may fail: the first failure, from the left, is the answer. -/
def replaceAllM {ε : Type} (recognize : Recognizer) (image : List Char → Except ε (List Char))
    (cs : List Char) : Except ε (List Char) :=
  List.flatten <$> (pieces recognize none cs).mapM fun
    | .plain c => .ok [c]
    | .hit text => image text

/-- A maximal run of characters of a class. -/
def run (p : Char → Bool) : Recognizer := fun _ cs =>
  some (cs.takeWhile p).length

/-- The maximal runs of characters of a class, in order. -/
def runs (p : Char → Bool) (cs : List Char) : List (List Char) :=
  findAll (run p) cs

/-- One spelling. -/
def literal (word : List Char) : Recognizer := fun _ cs =>
  if word.isPrefixOf cs then some word.length else none

/-- The text with every occurrence of one spelling replaced by another. -/
def replaceLiteral (word image : String) (cs : List Char) : List Char :=
  replaceAll (literal word.toList) (fun _ => image.toList) cs

/-- A match of `body` at the start of the text, or after one character that is neither a word
character nor `joint`. That character belongs to the match. -/
def afterBoundary (joint : Char) (body : List Char → Option Nat) : Recognizer := fun before cs =>
  let afterLead : Option Nat :=
    match cs with
    | [] => none
    | c :: rest => if isWordChar c || c == joint then none else (body rest).map (· + 1)
  match before with
  | none => body cs <|> afterLead
  | some _ => afterLead

end Sheetsmith.Text
