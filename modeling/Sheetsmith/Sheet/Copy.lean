import Sheetsmith.Sheet.Edit

namespace Sheetsmith

/-- The content of a node without what is below it. -/
def Node.alone : Node → Node
  | .group g => .group ⟨g.selector, []⟩
  | node => node

namespace Sheet

/-- Adds a detached copy of one node. -/
def copyNode (s : Sheet) (id : NodeId) : NodeId × Sheet :=
  match s.node? id with
  | some node => s.create node.alone
  | none => (s.size, s)

/-- Copies the nodes of a stack, each under the new parent it is paired with, and then what is below
them; at most `steps` nodes. -/
def copyBelow : (steps : Nat) → (stack : List (NodeId × NodeId)) → Sheet → Sheet
  | 0, _, s => s
  | _ + 1, [], s => s
  | steps + 1, (id, parent) :: stack, s =>
    let (copy, s) := s.copyNode id
    let s := s.link parent copy (· ++ [copy])
    copyBelow steps ((s.children id).map (·, copy) ++ stack) s

/-- Adds a detached copy of a node and of all that is below it. Parents are copied before children,
so the copies take consecutive numbers in the order of the walk. Old nodes are not changed. -/
def copySubtree (s : Sheet) (id : NodeId) : NodeId × Sheet :=
  let (copy, t) := s.copyNode id
  (copy, copyBelow s.size ((s.children id).map (·, copy)) t)

end Sheet

end Sheetsmith
