import Std.Data.HashMap
import Sheetsmith.Usage.Token

namespace Sheetsmith.Usage

/-- Names with their numbers of uses. -/
abbrev Table := Std.HashMap String Nat

namespace Table

/-- The names of pseudo-classes. They belong to the language of style sheets, not to a project. -/
def pseudoClasses : List String := [
  "after", "before", "hover", "focus", "active", "link", "visited", "lang", "first-child",
  "nth-child", "nth-last-child", "nth-of-type", "nth-last-of-type", "last-child",
  "first-of-type", "last-of-type", "only-child", "only-of-type", "root", "empty", "target",
  "enabled", "disabled", "checked", "not"]

/-- The table of a project without files: the names of pseudo-classes are known from the start, with
no use. -/
def start : Table :=
  pseudoClasses.foldl (fun table name => table.insert name 0) ∅

/-- Counts one use. -/
def count (table : Table) (name : String) : Table :=
  table.insert name (table.getD name 0 + 1)

/-- Counts the names of one file. -/
def countFile (strategy : ScanStrategy) (table : Table) (content : String) : Table :=
  (strategy.tokens content).foldl count table

/-- The table of a project with the given file contents. -/
def ofFiles (strategy : ScanStrategy) (contents : List String) : Table :=
  contents.foldl (countFile strategy) start

end Table

end Sheetsmith.Usage
