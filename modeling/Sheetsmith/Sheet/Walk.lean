import Sheetsmith.Sheet.Basic

namespace Sheetsmith.Sheet

/-- Visits the nodes of a stack and all that is below them, parents before children, for at most
`steps` nodes. In a forest no walk meets a node twice, so a step for each slot is enough. -/
def walk (s : Sheet) : (steps : Nat) → (stack : List NodeId) → List NodeId
  | 0, _ => []
  | _ + 1, [] => []
  | steps + 1, id :: stack => id :: s.walk steps (s.children id ++ stack)

/-- All nodes below a node, each one in front of its own descendants. -/
def descendants (s : Sheet) (id : NodeId) : List NodeId :=
  s.walk s.size (s.children id)

/-- The descendants of one sort. -/
def descendantsOfKind (s : Sheet) (id : NodeId) (kind : NodeKind) : List NodeId :=
  (s.descendants id).filter fun d => s.kind? d == some kind

/-- The declarations below a node. -/
def declarations (s : Sheet) (id : NodeId) : List NodeId :=
  s.descendantsOfKind id .declaration

/-- The groups below a node. -/
def groups (s : Sheet) (id : NodeId) : List NodeId :=
  s.descendantsOfKind id .group

/-- The comments, or the `@import` statements, below a node. -/
def leaves (s : Sheet) (id : NodeId) (kind : LeafKind) : List NodeId :=
  (s.descendants id).filter fun d =>
    match s.node? d with
    | some (.leaf leaf) => leaf.kind == kind
    | _ => false

/-- The node and its ancestors, nearest first, for at most `steps` nodes. -/
def climb (s : Sheet) : (steps : Nat) → Option NodeId → List NodeId
  | 0, _ => []
  | _ + 1, none => []
  | steps + 1, some id => id :: s.climb steps (s.parent? id)

/-- The ancestors of a node, nearest first. -/
def ancestors (s : Sheet) (id : NodeId) : List NodeId :=
  s.climb s.size (s.parent? id)

/-- Whether a node is `top` or lies below it. -/
def isWithin (s : Sheet) (id top : NodeId) : Bool :=
  id == top || (s.ancestors id).contains top

/-- Whether a node is in the tree below the root. -/
def isAttached (s : Sheet) (id : NodeId) : Bool :=
  s.isWithin id root

/-- The children of a node's parent, in order, the node itself included; none for a node without
a parent. -/
def family (s : Sheet) (id : NodeId) : List NodeId :=
  match s.parent? id with
  | some parent => s.children parent
  | none => []

/-- The other children of a node's parent. -/
def siblings (s : Sheet) (id : NodeId) : List NodeId :=
  (s.family id).filter (· != id)

/-- The declarations beside a node. -/
def siblingDeclarations (s : Sheet) (id : NodeId) : List Declaration :=
  (s.siblings id).filterMap s.declaration?

/-- Whether a node is the last child of its parent. -/
def isLastChild (s : Sheet) (id : NodeId) : Bool :=
  (s.family id).getLast? == some id

end Sheetsmith.Sheet
