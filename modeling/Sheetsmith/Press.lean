import Sheetsmith.Files.Collect
import Sheetsmith.Optimize.Basic
import Sheetsmith.Usage.Report

namespace Sheetsmith

/-- What to clean by. -/
structure CleanOptions where
  /-- The files and directories of the project. -/
  paths : List String
  extensions : List String
  strategy : Usage.ScanStrategy
  /-- Where to write the usage report, if anywhere. -/
  report : Option String

/-- Why a style sheet was not pressed. -/
inductive PressError where
  /-- The usage report could not be written. -/
  | report (path : String) (cause : FileError)
  | sheet (error : SheetError)
  | color (fault : Color.Fault)
deriving DecidableEq

/-- The text shown to the user when the usage report could not be written. -/
def reportMessage (path : String) (cause : FileError) : String :=
  "could not write usage report " ++ path ++ ": " ++ cause.message

variable {m : Type → Type} [Monad m]

/-- Takes out the selectors that a project does not use, and writes the usage report. When the report
cannot be written, the sheet is cleaned all the same. -/
def cleanSheet (files : Files m) (time : String) (options : CleanOptions) (s : Sheet) :
    m (Except PressError Usage.Summary × Sheet) := do
  let paths ← files.collect options.paths options.extensions
  let contents := (← paths.mapM files.readText?).filterMap id
  let (summary, s) := s.clean options.strategy contents
  match options.report with
  | none => return (.ok summary, s)
  | some path =>
    match ← files.write path (Text.toUtf8 (Usage.report time summary.usage)) with
    | .ok () => return (.ok summary, s)
    | .error cause => return (.error (.report path cause), s)

/-- What to do with a style sheet. -/
structure PressOptions where
  optimize : OptimizeOptions
  /-- Without these, nothing is cleaned. -/
  clean : Option CleanOptions

/-- A style sheet after pressing. -/
structure Pressed where
  css : String
  /-- The account of the cleaning, if there was one. -/
  summary : Option Usage.Summary

/-- Optimizes and writes a sheet. -/
def finishSheet (read : Color.Reader) (options : OptimizeOptions) (s : Sheet) :
    Except PressError String :=
  match s.optimize read options with
  | .ok (.ok (), s) => .ok (s.render options.layout)
  | .ok (.error e, _) => .error (.sheet e)
  | .error e => .error (.color e)

/-- Reads, cleans, optimizes and writes a style sheet. -/
def press (read : Color.Reader) (files : Files m) (time : String) (options : PressOptions)
    (css : String) : m (Except PressError Pressed) := do
  let s := Sheet.parse true css
  match options.clean with
  | none => return (finishSheet read options.optimize s).map (⟨·, none⟩)
  | some clean =>
    match ← cleanSheet files time clean s with
    | (.error e, _) => return .error e
    | (.ok summary, s) => return (finishSheet read options.optimize s).map (⟨·, some summary⟩)

end Sheetsmith
