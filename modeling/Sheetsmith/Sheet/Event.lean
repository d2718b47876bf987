import Sheetsmith.Text.Blank
import Sheetsmith.Text.Delimited
import Sheetsmith.Text.Split

namespace Sheetsmith

/-- What the reader meets in a text. -/
inductive Event where
  /-- A block opens behind a header, which may be missing. -/
  | opened (selector : Option String)
  | declaration (name value : String)
  | importRule (text : String)
  | comment (text : String)
  /-- The innermost block closes. -/
  | closed
deriving DecidableEq

namespace Event

/-- The text of a buffer: trimmed, or as it stands. -/
def clip (trim : Bool) (cs : List Char) : String :=
  String.ofList (if trim then Text.trim cs else cs)

/-- The declaration in a buffer: the name ends at the first colon. -/
def declaration? (trim : Bool) (buffer : String) : Option Event :=
  (Text.splitAtFirst? ':' buffer.toList).map fun (name, value) =>
    .declaration (clip trim name) (clip trim value)

/-- Whether a buffer holds an `@import` statement. -/
def isImport (buffer : String) : Bool :=
  "@import".toList.isPrefixOf (Text.trim buffer.toList)

/-- What a semicolon ends, and the buffer behind it. Text that is neither a declaration nor an
`@import` statement stays, with the semicolon. -/
def atSemicolon (trim : Bool) (buffer : String) : List Event × String :=
  match declaration? trim buffer with
  | some event => ([event], "")
  | none =>
    if isImport buffer then ([.importRule (clip trim buffer.toList ++ ";")], "")
    else if Text.isAllBlank buffer then ([], buffer)
    else ([], buffer.push ';')

/-- What a closing brace ends, and the buffer behind it. Outside every block the brace is text. -/
def atClose (trim : Bool) (depth : Nat) (buffer : String) : List Event × String :=
  let (events, buffer) :=
    match declaration? trim buffer with
    | some event => ([event], "")
    | none => ([], buffer)
  if depth = 0 then (events, buffer.push '\x7d') else (events ++ [.closed], buffer)

/-- The header of a block that opens. -/
def atOpen (trim : Bool) (buffer : String) : Event :=
  let selector := clip trim buffer.toList
  .opened (if selector.isEmpty then none else some selector)

/-- Reads a text inside `depth` open blocks, with the characters of `buffer` not yet told. They are
collected until a brace, a semicolon or the end tells what they were. The reading never fails: a
string or comment that is not closed runs to the end of the text. -/
def scan (trim : Bool) (depth : Nat) (buffer : String) (cs : List Char) : List Event :=
  match cs with
  | [] => (declaration? trim buffer).toList
  | c :: rest =>
    if c = '\x7b' then atOpen trim buffer :: scan trim (depth + 1) "" rest
    else if c = ';' then
      let (events, buffer) := atSemicolon trim buffer
      events ++ scan trim depth buffer rest
    else if c = '\x7d' then
      let (events, buffer) := atClose trim depth buffer
      events ++ scan trim (depth - 1) buffer rest
    else if c = '"' ∨ c = '\x27' then
      let string := Text.takeQuoted c c rest
      let text := Text.quotedText c string.1 string.2.isSome
      scan trim depth (buffer ++ String.ofList text) (string.2.getD [])
    else if c = '/' ∧ rest.head? = some '*' then
      match _h : Text.takeComment? false rest.tail with
      | some (text, after) =>
        .comment (String.ofList ('/' :: '*' :: text)) :: scan trim depth buffer after
      | none => (declaration? trim buffer).toList
    else scan trim depth (buffer.push c) rest
termination_by cs.length
decreasing_by
  all_goals simp_wf
  · have := Text.length_takeQuoted_le c c rest
    omega
  · have := Text.length_takeComment?_le _h
    simp at this
    omega

/-- The events of a whole text. -/
def ofText (trim : Bool) (text : String) : List Event :=
  scan trim 0 "" text.toList

end Event

end Sheetsmith
