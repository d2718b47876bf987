import Sheetsmith.Sheet.Basic

namespace Sheetsmith

namespace Sheet

/-- Adds a detached node; its number is the old size. -/
def create (s : Sheet) (node : Node) : NodeId × Sheet :=
  (s.size, ⟨s.slots.push ⟨node, none⟩⟩)

/-- Changes the content of a node. -/
def modifyNode (s : Sheet) (id : NodeId) (f : Node → Node) : Sheet :=
  ⟨s.slots.modify id fun slot => { slot with node := f slot.node }⟩

/-- Changes a node that is a group; any other node stays. -/
def modifyGroup (s : Sheet) (id : NodeId) (f : Group → Group) : Sheet :=
  s.modifyNode id fun
    | .group g => .group (f g)
    | node => node

/-- Changes a node that is a declaration; any other node stays. -/
def modifyDeclaration (s : Sheet) (id : NodeId) (f : Declaration → Declaration) : Sheet :=
  s.modifyNode id fun
    | .declaration d => .declaration (f d)
    | node => node

/-- Changes the parent link of a node, and nothing else. -/
def setParent (s : Sheet) (id : NodeId) (parent : Option NodeId) : Sheet :=
  ⟨s.slots.modify id fun slot => { slot with parent := parent }⟩

/-- Replaces the selector of a group. -/
def setSelector (s : Sheet) (id : NodeId) (selector : Option String) : Sheet :=
  s.modifyGroup id fun g => { g with selector := selector }

/-- Replaces the selector of a group by the list of the given parts. -/
def setSelectors (s : Sheet) (id : NodeId) (parts : List String) : Sheet :=
  s.setSelector id (some (", ".intercalate parts))

/-- Puts `child` into the child list of `group`, at the place that `place` gives it, and links it
back. -/
def link (s : Sheet) (group child : NodeId) (place : List NodeId → List NodeId) : Sheet :=
  (s.modifyGroup group fun g => { g with children := place g.children }).setParent child (some group)

/-- Whether a node may be put into the tree: it exists, is not the root and has no parent. -/
def checkDetached (s : Sheet) (id : NodeId) : Except SheetError Unit :=
  match s.slots[id]? with
  | none => .error (.missing id)
  | some slot => if slot.parent.isSome || id == root then .error (.alreadyAttached id) else .ok ()

/-- Whether a node may have children. -/
def checkGroup (s : Sheet) (id : NodeId) : Except SheetError Unit :=
  if (s.group? id).isSome then .ok () else .error (.notAGroup id)

/-- Puts a detached node behind the last child of a group. -/
def appendChild (s : Sheet) (group child : NodeId) : Except SheetError Sheet := do
  s.checkDetached child
  s.checkGroup group
  return s.link group child (· ++ [child])

/-- The list with `new` behind the first `old`, or at the end when there is no `old`. -/
def placeAfter (old new : NodeId) : List NodeId → List NodeId
  | [] => [new]
  | id :: ids => if id = old then id :: new :: ids else id :: placeAfter old new ids

/-- Puts a detached node right behind another one. -/
def insertAfter (s : Sheet) (id new : NodeId) : Except SheetError Sheet :=
  match s.parent? id with
  | none => .error (.detached id)
  | some parent => do
    s.checkDetached new
    s.checkGroup parent
    return s.link parent new (placeAfter id new)

/-- Takes a node, with all that is below it, out of the tree. A detached node stays as it is. -/
def remove (s : Sheet) (id : NodeId) : Sheet :=
  match s.parent? id with
  | none => s
  | some parent =>
    (s.setParent id none).modifyGroup parent fun g =>
      { g with children := g.children.filter (· != id) }

end Sheet

/-- A change of a sheet that may stop early. What was changed before it stopped stays changed. -/
abbrev Edit (α : Type) := ExceptT SheetError (StateM Sheet) α

namespace Edit

/-- Adds a detached node. -/
def create (node : Node) : Edit NodeId :=
  modifyGet fun s => s.create node

/-- Changes the sheet in a way that cannot fail. -/
def change (f : Sheet → Sheet) : Edit Unit :=
  modify f

/-- Changes the sheet in a way that may fail and then leaves it as it was. -/
def attempt (f : Sheet → Except SheetError Sheet) : Edit Unit := do
  match f (← get) with
  | .ok s => set s
  | .error e => throw e

/-- Creates a declaration right behind a node. It exists, detached, even when there is no place for
it. -/
def insertDeclarationAfter (id : NodeId) (name value : String) : Edit NodeId := do
  let new ← create (.declaration ⟨name, value⟩)
  attempt fun s => s.insertAfter id new
  return new

end Edit

end Sheetsmith
