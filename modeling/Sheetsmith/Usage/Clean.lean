import Sheetsmith.Sheet.Edit
import Sheetsmith.Sheet.Walk
import Sheetsmith.Usage.Table

namespace Sheetsmith

namespace Usage

/-- Uses by selector, in the order in which selectors were met first. -/
abbrev Counts := List (String × Nat)

namespace Counts

/-- Adds uses to those of a selector. -/
def add (name : String) (uses : Nat) : Counts → Counts
  | [] => [(name, uses)]
  | (known, n) :: rest => if known = name then (known, n + uses) :: rest else (known, n) :: add name uses rest

/-- Whether an entry may stand in front of another: fewer uses first, then by name. -/
def precedes (a b : String × Nat) : Bool :=
  a.2 < b.2 || a.2 == b.2 && !decide (b.1 < a.1)

/-- The entries by number of uses, then by name. -/
def sorted (counts : Counts) : Counts :=
  counts.mergeSort precedes

end Counts

/-- What was found out about the selectors of a sheet. -/
structure Findings where
  /-- The parts that were taken out, in the order of the sheet. -/
  removed : List String
  /-- The uses of the parts that stayed. -/
  counts : Counts

/-- What a part says without its pseudo-classes. -/
def plainPart (part : String) : List Char :=
  Text.beforeFirst ':' part.toList

/-- Whether a project uses all names of a part. -/
def isUsed (table : Table) (part : String) : Bool :=
  (names (plainPart part)).all table.contains

/-- How often a project uses the names of a part, all together. -/
def uses (table : Table) (part : String) : Nat :=
  (names (plainPart part)).foldl (fun total name => total + table.getD name 0) 0

/-- Takes note of one part. -/
def Findings.note (table : Table) (findings : Findings) (part : String) : Findings :=
  if isUsed table part then
    let name := String.ofList (Text.trim (plainPart part))
    { findings with counts := findings.counts.add name (uses table part) }
  else { findings with removed := findings.removed ++ [part] }

end Usage

namespace Sheet

open Usage

/-- Whether a group is an at-rule about keyframes. -/
def isKeyframesRule (s : Sheet) (id : NodeId) : Bool :=
  match s.selector? id with
  | some selector =>
    selector.toList.head? == some '@' &&
      Text.occurs (Text.literal "keyframes".toList) (Text.fold selector.toList)
  | none => false

/-- Whether the selector of a group is looked at: it has one, it is no at-rule, and it is not inside
keyframes. -/
def isCleanable (s : Sheet) (id : NodeId) : Bool :=
  match s.selector? id with
  | some selector =>
    (Text.trimStart selector.toList).head? != some '@' && !(s.ancestors id).any s.isKeyframesRule
  | none => false

/-- Takes the unused parts out of the selector of a group, and the group out of the tree when no
part stays. -/
def cleanGroup (table : Table) (s : Sheet) (id : NodeId) : Sheet :=
  let kept := (s.selectors id).filter (isUsed table)
  if kept.isEmpty then s.remove id else s.setSelectors id kept

/-- Looks at one group that is still in the tree. -/
def cleanStep (table : Table) (state : Sheet × Findings) (id : NodeId) : Sheet × Findings :=
  let (s, findings) := state
  if s.isAttached id && s.isCleanable id then
    (s.cleanGroup table id, (s.selectors id).foldl (Findings.note table) findings)
  else (s, findings)

/-- Takes all unused selectors out. -/
def cleanWith (table : Table) (s : Sheet) : Sheet × Findings :=
  (s.groups root).foldl (cleanStep table) (s, ⟨[], []⟩)

end Sheet

namespace Usage

/-- The account of a cleaning. -/
structure Summary where
  filesScanned : Nat
  /-- How many different names are known, those of pseudo-classes included. -/
  tokensFound : Nat
  /-- The parts of selectors that were taken out. -/
  removed : List String
  /-- The uses of the parts that stayed, fewest first. -/
  usage : Counts
deriving DecidableEq

end Usage

/-- Takes out the selectors that a project with the given file contents does not use. -/
def Sheet.clean (strategy : Usage.ScanStrategy) (contents : List String) (s : Sheet) :
    Usage.Summary × Sheet :=
  let table := Usage.Table.ofFiles strategy contents
  let (s, findings) := s.cleanWith table
  (⟨contents.length, table.size, findings.removed, findings.counts.sorted⟩, s)

end Sheetsmith
