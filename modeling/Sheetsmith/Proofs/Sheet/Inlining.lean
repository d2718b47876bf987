import Sheetsmith.Proofs.Sheet.Outline

namespace Sheetsmith

/-- How the text of some outlines ends. -/
inductive Ending where
  /-- Nothing was written. -/
  | silent
  /-- The end of the last node can be told from the text. -/
  | closed
  /-- The last node is a declaration without its semicolon. -/
  | bare
deriving DecidableEq

/-- The ending of one text behind another. -/
def Ending.then (first : Ending) : Ending → Ending
  | .silent => first
  | second => second

namespace Outline

mutual

/-- How the text of an outline ends. A group without selector parts ends as its children do. -/
def ending (layout : Layout) (last : Bool) : Outline → Ending
  | .leaf _ => .closed
  | .declaration _ => if layout = .compressed && last then .bare else .closed
  | .group parts children => if parts.isEmpty then endings layout children else .closed

/-- How the text of a list of outlines ends. -/
def endings (layout : Layout) : List Outline → Ending
  | [] => .silent
  | o :: os => (o.ending layout os.isEmpty).then (endings layout os)

end

mutual

/-- Nothing is written right behind a declaration without its semicolon, but for the end of its
block. -/
def guarded (layout : Layout) : Outline → Bool
  | .leaf _ => true
  | .declaration _ => true
  | .group _ children => allGuarded layout children

/-- `guarded` for a list of outlines. Only a group without selector parts that ends in a declaration
can stand in front of something and end so. -/
def allGuarded (layout : Layout) : List Outline → Bool
  | [] => true
  | o :: os => (o.ending layout os.isEmpty != .bare || endings layout os == .silent) &&
    o.guarded layout && allGuarded layout os

end

mutual

/-- What is read from the text of an outline: a group without selector parts writes its children and
nothing else. -/
def inlined : Outline → List Outline
  | .leaf l => [.leaf l]
  | .declaration d => [.declaration d]
  | .group parts children =>
    if parts.isEmpty then allInlined children else [.group parts (allInlined children)]

/-- `inlined` for a list of outlines. -/
def allInlined : List Outline → List Outline
  | [] => []
  | o :: os => o.inlined ++ allInlined os

end

mutual

/-- The declarations of an outline, in order. -/
def declared : Outline → List Declaration
  | .leaf _ => []
  | .declaration d => [d]
  | .group _ children => allDeclared children

/-- The declarations of a list of outlines, in order. -/
def allDeclared : List Outline → List Declaration
  | [] => []
  | o :: os => o.declared ++ allDeclared os

end

/-- Outlines in a row have the declarations of the first ones, then those of the others. -/
theorem allDeclared_append (os os' : List Outline) :
    allDeclared (os ++ os') = allDeclared os ++ allDeclared os' := by
  induction os with
  | nil => rfl
  | cons o os ih => rw [List.cons_append, allDeclared, allDeclared, ih, List.append_assoc]

mutual

/-- Leaving out a group without selector parts, and those inside of it, loses no declaration. Their
order stays as well. -/
theorem allDeclared_inlined : (o : Outline) → allDeclared o.inlined = o.declared
  | .leaf _ => rfl
  | .declaration _ => rfl
  | .group parts children => by
    rw [inlined, declared]
    split
    · exact allDeclared_allInlined children
    · rw [allDeclared, allDeclared, declared, List.append_nil]
      exact allDeclared_allInlined children

/-- Leaving out the groups without selector parts keeps the declarations and their order, at every
depth of nesting. -/
theorem allDeclared_allInlined : (os : List Outline) → allDeclared (allInlined os) = allDeclared os
  | [] => rfl
  | o :: os => by
    rw [allInlined, allDeclared_append, allDeclared, allDeclared_inlined o,
      allDeclared_allInlined os]

end

mutual

/-- Spread over lines, no outline ends in a declaration without its semicolon. -/
theorem ending_spread : (o : Outline) → (last : Bool) → o.ending .spread last ≠ .bare
  | .leaf _, _ => by simp [ending]
  | .declaration _, _ => by simp [ending]
  | .group parts children, _ => by
    rw [ending]
    split
    · exact endings_spread children
    · simp

theorem endings_spread : (os : List Outline) → endings .spread os ≠ .bare
  | [] => by simp [endings]
  | o :: os => by
    have ho := ending_spread o os.isEmpty
    have hos := endings_spread os
    rw [endings]
    cases hend : endings .spread os with
    | silent => exact ho
    | closed => simp [Ending.then]
    | bare => exact absurd hend hos

end

mutual

theorem guarded_spread : (o : Outline) → o.guarded .spread = true
  | .leaf _ => rfl
  | .declaration _ => rfl
  | .group _ children => allGuarded_spread children

/-- Spread over lines, every declaration has its semicolon, so nothing needs to be assumed about
what follows it. -/
theorem allGuarded_spread : (os : List Outline) → allGuarded .spread os = true
  | [] => rfl
  | o :: os => by
    have ho : (o.ending .spread os.isEmpty != .bare) = true := bne_iff_ne.2 (ending_spread o _)
    rw [allGuarded, ho, guarded_spread o, allGuarded_spread os]
    rfl

end

end Outline

end Sheetsmith
