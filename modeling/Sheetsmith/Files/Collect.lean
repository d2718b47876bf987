import Sheetsmith.Files.Basic
import Sheetsmith.Text.Blank
import Sheetsmith.Text.Fold
import Sheetsmith.Text.Lowercase
import Sheetsmith.Text.Utf8

namespace Sheetsmith.Files

/-- The extensions that are wanted when nothing else is asked for. -/
def defaultExtensions : List String :=
  ["php", "twig", "tpl", "htm", "html", "js", "rb", "py", "djt"]

/-- A wanted extension without blanks and points around it, in lower case. -/
def plainExtension (text : String) : String :=
  Text.lowercase (String.ofList ((Text.trim text.toList).dropWhile (· == '.')))

/-- What follows the last point of a file name. A point at the start of the name does not count. -/
def extension? (name : String) : Option String :=
  let reversed := name.toList.reverse
  let after := reversed.takeWhile (· != '.')
  match reversed.drop after.length with
  | _ :: _ :: _ => some (String.ofList after.reverse)
  | _ => none

/-- Whether a file name has one of the extensions. -/
def hasExtension (extensions : List String) (name : String) : Bool :=
  (extension? name).any fun ext => extensions.any (Text.sameFold · ext)

/-- A path with further names behind it. -/
def joinPath (path : String) (names : List String) : String :=
  let gap := if path.toList.getLast? = some '/' then "" else "/"
  path ++ gap ++ "/".intercalate names

variable {m : Type → Type} [Monad m]

/-- The files that one path stands for: the files below it that have one of the extensions when it
leads to a directory, and itself otherwise. -/
def collectOne (files : Files m) (extensions : List String) (path : String) : m (List String) := do
  if ← files.isDirectory path then
    let found := (← files.below path).filter fun names =>
      names.getLast?.any (hasExtension extensions)
    return found.map (joinPath path)
  else return [path]

/-- The files that a list of paths stands for. -/
def collect (files : Files m) (paths extensions : List String) : m (List String) := do
  let wanted := (extensions.map plainExtension).filter (!·.isEmpty)
  return (← paths.mapM (collectOne files wanted)).flatten

/-- The content of a file as text; faults in its encoding are replaced. -/
def readText? (files : Files m) (path : String) : m (Option String) := do
  match ← files.read path with
  | .ok bytes => return some (Text.ofUtf8Lossy bytes)
  | .error _ => return none

end Sheetsmith.Files
