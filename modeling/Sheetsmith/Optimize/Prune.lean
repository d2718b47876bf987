import Sheetsmith.Sheet.Edit
import Sheetsmith.Sheet.Walk

namespace Sheetsmith.Sheet

/-- Takes a list of nodes out of the tree. -/
def removeAll (s : Sheet) (ids : List NodeId) : Sheet :=
  ids.foldl remove s

/-- Takes out all comments. -/
def removeComments (s : Sheet) : Sheet :=
  s.removeAll (s.leaves root .comment)

/-- Whether a declaration is read by old browsers of one family only: a filter, a name with a star
or an underscore in front, an expression, or a value that ends in `\9`. -/
def isHack (d : Declaration) : Bool :=
  d.isNamed "filter" || d.isNamed "-ms-filter" || d.name.toList.head? == some '*' ||
    d.name.toList.head? == some '_' || Text.startsWithFold "expression".toList d.value.toList ||
    ['\\', '9'].isSuffixOf d.value.toList

/-- Takes out all hacks. -/
def removeHacks (s : Sheet) : Sheet :=
  s.removeAll ((s.declarations root).filter fun id => (s.declaration? id).any isHack)

/-- Takes out a group without children. -/
def pruneGroup (s : Sheet) (id : NodeId) : Sheet :=
  if (s.children id).isEmpty then s.remove id else s

/-- Takes out all groups without content. Inner groups go first, so that a group that loses its last
child goes too. -/
def pruneGroups (s : Sheet) : Sheet :=
  (s.groups root).reverse.foldl pruneGroup s

end Sheetsmith.Sheet
