import Sheetsmith.Sheet.Edit
import Sheetsmith.Sheet.Event

namespace Sheetsmith

/-- A sheet under construction and the innermost open block. -/
structure Builder where
  sheet : Sheet
  current : NodeId

namespace Builder

/-- Creates a node at the end of the innermost open block. A node that cannot be attached stays
detached. -/
def add (b : Builder) (node : Node) : NodeId × Builder :=
  let (id, sheet) := b.sheet.create node
  match sheet.appendChild b.current id with
  | .ok sheet => (id, { b with sheet })
  | .error _ => (id, { b with sheet })

/-- Takes in one event. -/
def step (b : Builder) : Event → Builder
  | .opened selector =>
    let (id, b) := b.add (.group ⟨selector, []⟩)
    { b with current := id }
  | .declaration name value => (b.add (.declaration ⟨name, value⟩)).2
  | .importRule text => (b.add (.leaf ⟨.importRule, text⟩)).2
  | .comment text => (b.add (.leaf ⟨.comment, text⟩)).2
  | .closed => { b with current := (b.sheet.parent? b.current).getD b.current }

end Builder

namespace Sheet

/-- The sheet that a list of events describes. Each event but the closing of a block creates one
node, so nodes are numbered in the order of the text. -/
def ofEvents (events : List Event) : Sheet :=
  (events.foldl Builder.step ⟨empty, root⟩).sheet

/-- Reads a text; with `trim`, selectors, names and values are trimmed. -/
def parse (trim : Bool) (text : String) : Sheet :=
  ofEvents (Event.ofText trim text)

end Sheet

end Sheetsmith
