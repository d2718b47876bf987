import Sheetsmith.Numeric.Decimal
import Sheetsmith.Sheet.Copy
import Sheetsmith.Sheet.Edit
import Sheetsmith.Sheet.Walk
import Sheetsmith.Vendor.Gradient

namespace Sheetsmith

namespace Edit

/-- Inserts a declaration behind `id` unless a declaration beside it satisfies `clash`; tells whether
it did. -/
def insertUnless (clash : Declaration → Bool) (id : NodeId) (name value : String) : Edit Bool := do
  if ((← get).siblingDeclarations id).any clash then return false
  let _ ← insertDeclarationAfter id name value
  return true

/-- Inserts a declaration behind `id` unless the property is declared beside it. -/
def insertUnlessNamed (id : NodeId) (name value : String) : Edit Bool :=
  insertUnless (·.isNamed name) id name value

/-- Inserts a declaration behind `id` unless the same declaration stands beside it. -/
def insertUnlessPresent (id : NodeId) (name value : String) : Edit Unit := do
  let _ ← insertUnless (fun d => d.isNamed name && d.value == value) id name value

end Edit

namespace Vendor

/-- Adds copies of a declaration under the given names; tells whether one was added. -/
def addRenamed (id : NodeId) (value : String) (names : List String) : Edit Bool :=
  names.foldlM
    (fun added name => do return (← Edit.insertUnlessNamed id name value) || added) false

/-- The value of a filter as one string: the quote is the one that the value does not use. -/
def quotedFilter (value : String) : String :=
  if value.toList.contains '\x27' then "\"" ++ value ++ "\"" else "'" ++ value ++ "'"

/-- The opacity in percent, cut off toward zero, when the value is a finite number. -/
def opacityPercent? (value : String) : Option Int := do
  let opacity := (← Numeric.readNumber? (Text.trim value.toList)).toFloat
  if opacity.isFinite then some (opacity * 100).toInt64.toInt else none

/-- Adds the opacity as filters, for the vendor that knows it by no other name. -/
def addOpacityFilters (vendors : VendorSet) (id : NodeId) (value : String) : Edit Unit :=
  match opacityPercent? value with
  | some percent =>
    if vendors.msie then do
      let alpha := "alpha(opacity=" ++ toString percent ++ ")"
      Edit.insertUnlessPresent id "-ms-filter" ("\"" ++ alpha ++ "\"")
      Edit.insertUnlessPresent id "filter" alpha
      Edit.insertUnlessPresent id "zoom" "1"
    else pure ()
  | none => pure ()

/-- What a vendor declares to preserve white space and wrap lines. -/
def wrapDeclarations : Vendor → List Declaration
  | .mozilla => [⟨"white-space", "-moz-pre-wrap"⟩]
  | .webkit => [⟨"white-space", "-webkit-pre-wrap"⟩]
  | .opera => [⟨"white-space", "-pre-wrap"⟩, ⟨"white-space", "-o-pre-wrap"⟩]
  | .msie => [⟨"word-wrap", "break-word"⟩]

/-- Adds the vendors' declarations for wrapped preserved white space. -/
def addWrapKeywords (vendors : VendorSet) (id : NodeId) (value : String) : Edit Unit :=
  if Text.sameFold (Text.trimmed value) "pre-wrap" then
    (vendors.toList.flatMap wrapDeclarations).forM fun d =>
      Edit.insertUnlessPresent id d.name d.value
  else pure ()

/-- Adds the vendors' forms of one gradient function, and the filter that draws the gradient. -/
def addGradient (vendors : VendorSet) (id : NodeId) (name value function : String)
    (forms : VendorForms) : Edit Unit :=
  if Gradient.uses function value then do
    (forms.within vendors).forM fun form => do
      let adapted := Gradient.withForm function form value
      let _ ← Edit.insertUnless (·.value == adapted) id name adapted
    match Gradient.filter? value with
    | some filter => if vendors.msie then Edit.insertUnlessPresent id "filter" filter else pure ()
    | none => pure ()
  else pure ()

/-- Adds the vendor forms of one declaration. With `replace`, a declaration that was copied under a
vendor's name is taken out. -/
def expandDeclaration (vendors : VendorSet) (replace : Bool) (id : NodeId) : Edit Unit := do
  match (← get).declaration? id with
  | none => pure ()
  | some ⟨name, value⟩ =>
    let name := Text.folded name
    match VendorRule.ofProperty name with
    | .renamed forms =>
      let added ← addRenamed id value (forms.within vendors)
      if added && replace then Edit.change (·.remove id)
    | .filterTwin =>
      if vendors.msie then
        let _ ← Edit.insertUnlessNamed id "-ms-filter" (quotedFilter value)
    | .opacityFilters => addOpacityFilters vendors id value
    | .wrapKeywords => addWrapKeywords vendors id value
    | .gradients =>
      gradientForms.forM fun (function, forms) => addGradient vendors id name value function forms

/-- Visits the declarations below `group` from number `first` on, then those that were created
meanwhile, and so on for at most `rounds` rounds. -/
def visitRounds (visit : NodeId → Edit Unit) (group : NodeId) :
    (rounds : Nat) → (first : NodeId) → Edit Unit
  | 0, _ => pure ()
  | rounds + 1, first => do
    let s ← get
    let pending := (s.declarations group).filter (first ≤ ·)
    if pending.isEmpty then pure ()
    else do
      pending.forM visit
      visitRounds visit group rounds s.size

/-- No declaration has forms of forms beyond this depth: a renamed copy may use each of the four
gradient functions once, the filter for a gradient may need a quoted twin, and the last round finds
nothing left to do. -/
def roundLimit : Nat := 12

/-- Adds the forms of one vendor inside a copy of a keyframes block. -/
def expandCopy (vendor : Vendor) (copy : NodeId) : Edit Unit :=
  visitRounds (expandDeclaration (.only vendor) true) copy roundLimit 0

end Vendor

/-- The keyframes block that a node belongs to. -/
inductive Keyframes where
  /-- The block without a vendor's name. -/
  | plain (id : NodeId)
  /-- A block with a vendor's name. -/
  | vendored
deriving DecidableEq

namespace Sheet

/-- Whether a group is a keyframes block, by its header. -/
def keyframes? (s : Sheet) (id : NodeId) : Option Keyframes := do
  let header := Text.fold (← s.selector? id).toList
  if "@keyframes".toList.isPrefixOf header then some (.plain id)
  else if "@-".toList.isPrefixOf header &&
      Text.occurs (Text.literal "-keyframes".toList) header then some .vendored
  else none

/-- The outermost keyframes block around a node. -/
def keyframesAround (s : Sheet) (id : NodeId) : Option Keyframes :=
  ((s.ancestors id).filterMap s.keyframes?).getLast?

end Sheet

namespace Vendor

/-- The order in which the copies of a keyframes block are put behind it. -/
def keyframesOrder : List Vendor :=
  [.msie, .opera, .mozilla, .webkit]

/-- Puts a vendor's copy of a keyframes block behind it, unless a block of that name stands beside
it. -/
def copyKeyframes (id : NodeId) (selector : String) (vendor : Vendor) : Edit Unit := do
  let s ← get
  if ((s.siblings id).filterMap s.selector?).contains selector then pure ()
  else do
    let copy ← modifyGet fun s => s.copySubtree id
    Edit.change (·.setSelector copy (some selector))
    Edit.attempt (·.insertAfter id copy)
    expandCopy vendor copy

/-- Adds the vendors' copies of a keyframes block, each behind the block as a whole. Inside a copy,
a declaration gives way to its vendor form. -/
def expandKeyframes (vendors : VendorSet) (id : NodeId) : Edit Unit := do
  match (← get).selector? id with
  | none => pure ()
  | some selector =>
    let name := String.ofList (selector.toList.drop "@keyframes".length)
    (keyframesOrder.filter vendors.contains).forM fun vendor =>
      copyKeyframes id (vendor.keyframesWord ++ name) vendor

/-- Adds the vendor forms that a declaration asks for: those of the keyframes block around it, or its
own. -/
def expandAt (vendors : VendorSet) (id : NodeId) : Edit Unit := do
  match (← get).keyframesAround id with
  | some (.plain keyframes) => expandKeyframes vendors keyframes
  | some .vendored => pure ()
  | none => expandDeclaration vendors false id

/-- Adds the forms of a set of vendors to all that is below a group. The forms of a declaration are
put right behind it; they may have forms of their own, so the work goes in rounds. -/
def expand (vendors : VendorSet) (group : NodeId) : Edit Unit :=
  visitRounds (expandAt vendors) group roundLimit 0

end Vendor

end Sheetsmith
