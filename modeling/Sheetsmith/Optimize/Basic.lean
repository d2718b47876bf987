import Sheetsmith.Optimize.Merge
import Sheetsmith.Optimize.Prune
import Sheetsmith.Optimize.Shorthand
import Sheetsmith.Sheet.Parse
import Sheetsmith.Text.Lowercase
import Sheetsmith.Value.Basic
import Sheetsmith.Vendor.Expand

namespace Sheetsmith

/-- Which passes run. -/
structure OptimizeOptions where
  /-- Write the result compressed. -/
  compress : Bool
  removeComments : Bool
  /-- Put names in lower case, shorten values and use shorthands. -/
  optimize : Bool
  /-- Join groups with equal bodies; this may change which declaration wins. -/
  mergeGroups : Bool
  removeHacks : Bool
  /-- Take out groups without content. -/
  removeEmpty : Bool
  /-- The vendors to add forms for, as a list in a text. -/
  vendors : String

/-- The options that run when nothing else is asked for. -/
def OptimizeOptions.standard : OptimizeOptions where
  compress := true
  removeComments := true
  optimize := true
  mergeGroups := false
  removeHacks := false
  removeEmpty := true
  vendors := "all"

/-- The layout of the result. -/
def OptimizeOptions.layout (options : OptimizeOptions) : Layout :=
  if options.compress then .compressed else .spread

namespace Sheet

/-- Puts the names of all declarations in lower case. -/
def lowerNames (s : Sheet) : Sheet :=
  (s.declarations root).foldl
    (fun s id => s.modifyDeclaration id fun d => { d with name := Text.lowercase d.name }) s

/-- Shortens one declaration: its words and colours, then the shorthand it completes, then its
lengths. -/
def optimizeDeclaration (read : Color.Reader) (s : Sheet) (id : NodeId) :
    Except Color.Fault Sheet := do
  match s.declaration? id with
  | none => return s
  | some d =>
    let value ← Value.optimizeWords read d.name d.value
    let s := s.modifyDeclaration id fun d => { d with value }
    let s ← match s.mergeShorthand? id with
      | none => pure s
      | some (name, joined, s) => do
        let value ← Value.optimizeWords read name joined
        pure (s.modifyDeclaration id fun _ => ⟨name, value⟩)
    return s.modifyDeclaration id fun d => { d with value := Value.optimizeUnits d.name d.value }

/-- Shortens a declaration that has not been merged into a shorthand before. -/
def optimizeAttached (read : Color.Reader) (s : Sheet) (id : NodeId) :
    Except Color.Fault Sheet :=
  if s.isAttached id then s.optimizeDeclaration read id else .ok s

/-- Shortens all declarations. -/
def optimizeDeclarations (read : Color.Reader) (s : Sheet) : Except Color.Fault Sheet :=
  (s.declarations root).foldlM (optimizeAttached read) s

/-- Runs a pass if it is asked for. -/
def passIf (asked : Bool) (pass : Sheet → Sheet) (s : Sheet) : Sheet :=
  if asked then pass s else s

/-- All passes but the vendor forms, in their order: comments, names in lower case, hacks, values
and shorthands, empty groups, equal groups. -/
def shorten (read : Color.Reader) (options : OptimizeOptions) (s : Sheet) :
    Except Color.Fault Sheet := do
  let s := s.passIf options.removeComments removeComments
  let s := s.passIf options.optimize lowerNames
  let s := s.passIf options.removeHacks removeHacks
  let s ← if options.optimize then s.optimizeDeclarations read else pure s
  let s := s.passIf (options.optimize && options.removeEmpty) pruneGroups
  return s.passIf options.mergeGroups mergeGroups

/-- All passes. The vendor forms may fail; then what was done before stays done. -/
def optimize (read : Color.Reader) (options : OptimizeOptions) (s : Sheet) :
    Except Color.Fault (Except SheetError Unit × Sheet) := do
  let s ← s.shorten read options
  return (Vendor.expand (.ofText options.vendors) root).run.run s

end Sheet

/-- Why a text was not optimized. -/
inductive OptimizeError where
  | sheet (error : SheetError)
  | color (fault : Color.Fault)
deriving DecidableEq

/-- Reads a text, runs all passes and writes the result. -/
def optimizeText (read : Color.Reader) (options : OptimizeOptions) (text : String) :
    Except OptimizeError String :=
  match (Sheet.parse true text).optimize read options with
  | .ok (.ok (), s) => .ok (s.render options.layout)
  | .ok (.error e, _) => .error (.sheet e)
  | .error e => .error (.color e)

end Sheetsmith
