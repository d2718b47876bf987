import Sheetsmith.Text.Blank
import Sheetsmith.Text.Fold
import Sheetsmith.Text.Split

namespace Sheetsmith

/-- The number of a node in its sheet. -/
abbrev NodeId := Nat

/-- The two kinds of statement that are kept as plain text. -/
inductive LeafKind where
  | comment
  | importRule
deriving DecidableEq

/-- A comment or an `@import` statement. -/
structure Leaf where
  kind : LeafKind
  text : String
deriving DecidableEq

/-- A property and its value. -/
structure Declaration where
  name : String
  value : String
deriving DecidableEq

/-- Whether the declaration sets the named property; property names do not regard ASCII case. -/
def Declaration.isNamed (d : Declaration) (name : String) : Bool :=
  Text.sameFold d.name name

/-- A block with the header in front of it. The root and blocks without a header have no
selector. -/
structure Group where
  selector : Option String
  children : List NodeId
deriving DecidableEq

/-- What a slot holds. -/
inductive Node where
  | leaf (leaf : Leaf)
  | declaration (declaration : Declaration)
  | group (group : Group)
deriving DecidableEq

/-- The three sorts of node. -/
inductive NodeKind where
  | leaf
  | declaration
  | group
deriving DecidableEq

/-- The sort of a node. -/
def Node.kind : Node → NodeKind
  | .leaf _ => .leaf
  | .declaration _ => .declaration
  | .group _ => .group

/-- A node and the group it belongs to. -/
structure Slot where
  node : Node
  parent : Option NodeId
deriving DecidableEq

/-- A style sheet keeps its nodes in numbered slots. Slot 0 is the root group; a node keeps its
number for good, also after it was taken out of the tree, so a sheet may hold detached subtrees
beside the one below the root. Parent links and child lists are stored side by side;
`Sheet.IsForest` states how they agree. -/
structure Sheet where
  slots : Array Slot
deriving DecidableEq

/-- Why a node cannot be put into the tree. -/
inductive SheetError where
  /-- The place is beside a node without a parent. -/
  | detached (id : NodeId)
  /-- The node has a parent already, or is the root. -/
  | alreadyAttached (id : NodeId)
  /-- The place is inside a node that is no group. -/
  | notAGroup (id : NodeId)
  /-- There is no node of this number to put anywhere. -/
  | missing (id : NodeId)
deriving DecidableEq

/-- The text shown to the user. -/
def SheetError.message : SheetError → String
  | .detached id => "node NodeId(" ++ toString id ++ ") has no parent"
  | .alreadyAttached id => "node NodeId(" ++ toString id ++ ") already belongs to a group"
  | .notAGroup id => "node NodeId(" ++ toString id ++ ") is not a rule group"
  | .missing id => "node NodeId(" ++ toString id ++ ") does not exist"

namespace Sheet

/-- The sheet that holds nothing but its root. -/
def empty : Sheet :=
  ⟨#[⟨.group ⟨none, []⟩, none⟩]⟩

/-- The number of the root group. -/
def root : NodeId := 0

/-- How many nodes were ever created. -/
def size (s : Sheet) : Nat :=
  s.slots.size

/-- The node of a number. -/
def node? (s : Sheet) (id : NodeId) : Option Node :=
  s.slots[id]?.map (·.node)

/-- The group that a node belongs to. -/
def parent? (s : Sheet) (id : NodeId) : Option NodeId :=
  s.slots[id]?.bind (·.parent)

/-- The node, when it is a group. -/
def group? (s : Sheet) (id : NodeId) : Option Group :=
  match s.node? id with
  | some (.group g) => some g
  | _ => none

/-- The node, when it is a declaration. -/
def declaration? (s : Sheet) (id : NodeId) : Option Declaration :=
  match s.node? id with
  | some (.declaration d) => some d
  | _ => none

/-- The sort of a node. -/
def kind? (s : Sheet) (id : NodeId) : Option NodeKind :=
  (s.node? id).map Node.kind

/-- The children of a node, in order; only a group has any. -/
def children (s : Sheet) (id : NodeId) : List NodeId :=
  match s.group? id with
  | some g => g.children
  | none => []

/-- The selector of a group that has one. -/
def selector? (s : Sheet) (id : NodeId) : Option String :=
  (s.group? id).bind (·.selector)

/-- The parts of a selector between its commas, each trimmed. A comma inside a quoted attribute
value separates parts too. -/
def selectorParts (selector : String) : List String :=
  if selector.isEmpty then []
  else (Text.splitAtEach ',' selector.toList).map fun part => String.ofList (Text.trim part)

/-- The selector parts of a group. -/
def selectors (s : Sheet) (id : NodeId) : List String :=
  match s.selector? id with
  | some selector => selectorParts selector
  | none => []

end Sheet

end Sheetsmith
