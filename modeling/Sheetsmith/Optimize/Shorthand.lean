import Sheetsmith.Sheet.Edit
import Sheetsmith.Sheet.Walk

namespace Sheetsmith

/-- A property that stands for several others at once. -/
structure Shorthand where
  name : String
  members : List String

namespace Shorthand

/-- The shorthand properties; no property is a member of two. -/
def all : List Shorthand := [
  ⟨"background", ["background-color", "background-image", "background-repeat",
    "background-position", "background-attachment"]⟩,
  ⟨"font", ["font-style", "font-variant", "font-weight", "font-size", "line-height",
    "font-family"]⟩,
  ⟨"margin", ["margin-top", "margin-right", "margin-bottom", "margin-left"]⟩,
  ⟨"padding", ["padding-top", "padding-right", "padding-bottom", "padding-left"]⟩,
  ⟨"list-style", ["list-style-type", "list-style-position", "list-style-image"]⟩,
  ⟨"border-width", ["border-top-width", "border-right-width", "border-bottom-width",
    "border-left-width"]⟩,
  ⟨"border-radius", ["border-top-left-radius", "border-top-right-radius",
    "border-bottom-right-radius", "border-bottom-left-radius"]⟩]

/-- The shorthand that a property is a member of. -/
def ofMember? (property : String) : Option Shorthand :=
  all.find? fun shorthand => shorthand.members.contains property

end Shorthand

namespace Sheet

/-- The first declaration beside a node, or the node itself, that sets exactly the named property. -/
def firstNamed? (s : Sheet) (id : NodeId) (property : String) : Option NodeId :=
  (s.family id).find? fun d => (s.declaration? d).any (·.name == property)

/-- The declarations of all members of a shorthand in the group of a node, if it has them all. -/
def members? (s : Sheet) (id : NodeId) (shorthand : Shorthand) : Option (List NodeId) :=
  shorthand.members.mapM (s.firstNamed? id)

/-- The shorthand that can take the place of a declaration, the value that its members give it, and
the sheet without the other members. -/
def mergeShorthand? (s : Sheet) (id : NodeId) : Option (String × String × Sheet) := do
  let shorthand ← Shorthand.ofMember? (← s.declaration? id).name
  let members ← s.members? id shorthand
  let values := (members.filterMap s.declaration?).map (·.value)
  let others := members.filter (· != id)
  return (shorthand.name, " ".intercalate values, others.foldl Sheet.remove s)

end Sheet

end Sheetsmith
