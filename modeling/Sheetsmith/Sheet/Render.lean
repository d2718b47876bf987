import Sheetsmith.Sheet.Walk

namespace Sheetsmith

/-- How a sheet is laid out. -/
inductive Layout where
  | compressed
  | spread
deriving DecidableEq

/-- What stands between the parts of a selector. -/
def Layout.comma : Layout → String
  | .compressed => ","
  | .spread => ", "

/-- What opens the block behind a selector. -/
def Layout.blockOpen : Layout → String
  | .compressed => "\x7b"
  | .spread => "\x7b\n\t"

/-- What stands between the children of a block with a selector. -/
def Layout.blockGap : Layout → String
  | .compressed => ""
  | .spread => "\n\t"

/-- What closes a block with a selector. -/
def Layout.blockClose : Layout → String
  | .compressed => "\x7d"
  | .spread => "\n\x7d\n"

/-- What stands between the children of a group without a selector. -/
def Layout.rootGap : Layout → String
  | .compressed => ""
  | .spread => "\n"

namespace Sheet

/-- Something still to be written. -/
inductive Pending where
  | text (text : String)
  | node (id : NodeId)

/-- The children of a group with a fixed text between them. -/
def spaced (gap : String) (ids : List NodeId) : List Pending :=
  List.intersperse (.text gap) (ids.map .node)

/-- The texts and nodes that a node is written as: a leaf is its text, a declaration ends in `;`
unless it is the last of its group in compressed layout, a group writes its children in order. -/
def expand (s : Sheet) (layout : Layout) (id : NodeId) : List Pending :=
  match s.node? id with
  | none => []
  | some (.leaf leaf) => [.text leaf.text]
  | some (.declaration d) =>
    let stop := if layout = .compressed && s.isLastChild id then "" else ";"
    [.text (d.name ++ ":" ++ d.value ++ stop)]
  | some (.group g) =>
    match g.selector with
    | some selector =>
      if selector.isEmpty then spaced layout.rootGap g.children
      else
        .text (layout.comma.intercalate (selectorParts selector) ++ layout.blockOpen) ::
          spaced layout.blockGap g.children ++ [.text layout.blockClose]
    | none => spaced layout.rootGap g.children

/-- Writes what is on the stack behind `out`, for at most `steps` entries. The stack keeps what is
still to be written, so the depth of a sheet does not matter. -/
def write (s : Sheet) (layout : Layout) :
    (steps : Nat) → (stack : List Pending) → (out : String) → String
  | 0, _, out => out
  | _ + 1, [], out => out
  | steps + 1, .text text :: stack, out => s.write layout steps stack (out ++ text)
  | steps + 1, .node id :: stack, out => s.write layout steps (s.expand layout id ++ stack) out

/-- The text of a node and of all that is below it. A node takes one step, its own texts at most two
and the gap in front of it one, so four steps for each slot are enough. -/
def renderNode (s : Sheet) (layout : Layout) (id : NodeId) : String :=
  s.write layout (4 * s.size + 1) [.node id] ""

/-- The text of a sheet. -/
def render (s : Sheet) (layout : Layout) : String :=
  s.renderNode layout root

end Sheet

end Sheetsmith
