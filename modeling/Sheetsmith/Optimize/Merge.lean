import Sheetsmith.Sheet.Edit
import Sheetsmith.Sheet.Render

namespace Sheetsmith.Sheet

/-- The text of a group's children, one behind the other. -/
def bodyText (s : Sheet) (id : NodeId) : String :=
  "\n\t".intercalate ((s.children id).map (s.renderNode .spread))

/-- Whether a group has a selector that may join a list; the header of an at-rule may not. -/
def isMergeable (s : Sheet) (id : NodeId) : Bool :=
  match s.selector? id with
  | some selector => (Text.trimStart selector.toList).head? != some '@'
  | none => false

/-- The groups behind a node in its parent. -/
def followingGroups (s : Sheet) (id : NodeId) : List NodeId :=
  (((s.family id).filter fun d => s.kind? d == some .group).dropWhile (· != id)).drop 1

/-- Takes one group into another: its selector joins the list, and it leaves the tree. -/
def absorb (s : Sheet) (id other : NodeId) : Sheet :=
  match s.selector? id, s.selector? other with
  | some selector, some more => (s.setSelector id (some (selector ++ "," ++ more))).remove other
  | _, _ => s

/-- Takes another group in when its body is the given text. -/
def absorbEqual (id : NodeId) (body : String) (s : Sheet) (other : NodeId) : Sheet :=
  if s.isMergeable other && s.bodyText other == body then s.absorb id other else s

/-- Takes all equal groups behind a group into it. -/
def absorbFollowing (s : Sheet) (id : NodeId) : Sheet :=
  if s.isAttached id && s.isMergeable id then
    (s.followingGroups id).foldl (absorbEqual id (s.bodyText id)) s
  else s

/-- Joins the groups of each parent whose bodies are written alike, from the first group on. The
first of them gets the selectors of the others. -/
def mergeGroups (s : Sheet) : Sheet :=
  (s.groups root).foldl absorbFollowing s

end Sheetsmith.Sheet
