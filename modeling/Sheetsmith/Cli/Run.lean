import Sheetsmith.Cli.Arguments
import Sheetsmith.Cli.Measure
import Sheetsmith.Press

namespace Sheetsmith.Cli

/-- What a run asks of the machine. -/
structure Host (m : Type → Type) where
  files : Files m
  /-- All of the standard input. -/
  stdin : m (List UInt8)
  /-- The time of the day, for the report. -/
  now : m String
  /-- The time since the start of the run, for the summary. -/
  elapsed : m String

/-- How a run ends. -/
structure Outcome where
  code : Nat
  stdout : String
  /-- The message of a run that failed. -/
  failure : Option String
deriving DecidableEq

/-- Why a run fails. -/
inductive Failure where
  /-- A message for the user. -/
  | message (text : String)
  /-- The reading of a colour came to a stop, and the run with it. -/
  | stopped (fault : Color.Fault)

/-- A failure of pressing. The cause of a report that cannot be written is told twice, once in its
own message and once behind it. -/
def Failure.ofPress : PressError → Failure
  | .report path cause => .message (reportMessage path cause ++ ": " ++ cause.message)
  | .sheet error => .message error.message
  | .color fault => .stopped fault

/-- How a run ends that fails after printing something. -/
def Outcome.ofFailure (stdout : String) : Failure → Outcome
  | .message text => ⟨1, stdout, some ("FATAL ERROR: " ++ text)⟩
  | .stopped _ => ⟨101, stdout, none⟩

/-- The heading of the summary. -/
def banner : String :=
  "\n".intercalate [
    "",
    "      ___________ ____  ________  ________  ________",
    "     / ____/ ___// ___// __ \\/ _ \\/ ___/ / ___/ ___/",
    "    / /    \\__ \\ \\__ \\/ /_/ /  __/ /  (__  |__  )",
    "    \\____/____/ /____/ .___/\\___/_/  /____/____/",
    "                    /_/",
    "",
    "    csspress - optimize, prefix and clean stylesheets",
    "",
    ""]

/-- How to use the program. -/
def helpText : String :=
  "Optimize, compress, prefix and clean CSS\n\nUsage: csspress [OPTIONS] [INPUT] [OUTPUT]\n"

/-- The options for optimizing. -/
def optimizeOptions (args : Arguments) : OptimizeOptions :=
  { OptimizeOptions.standard with
    compress := args.value? .compress != some "false"
    optimize := args.value? .optimize != some "false"
    mergeGroups := args.flags.contains .mergeGroups
    removeHacks := args.flags.contains .removeHacks
    vendors := (args.value? .vendors).getD "all" }

/-- The parts of a list in an argument. -/
def listed (sep : Char) (text : String) : List String :=
  (Text.splitAtEach sep text.toList).map String.ofList

/-- The options for cleaning, if it is asked for. -/
def cleanOptions (args : Arguments) : Except Failure (Option CleanOptions) :=
  if args.flags.contains .clean then
    match args.value? .paths with
    | none =>
      .error (.message ("please indicate the project source path with --paths; " ++
        "join multiple paths with the platform path separator"))
    | some paths =>
      let mode := (args.value? .mode).getD "safe"
      match Usage.ScanStrategy.ofText? mode with
      | none => .error (.message (Usage.ScanStrategy.unknownMessage mode))
      | some strategy =>
        let extensions :=
          match args.value? .extensions with
          | some text => (listed ',' text).map Text.trimmed
          | none => Files.defaultExtensions
        .ok (some ⟨listed ':' paths, extensions, strategy, args.value? .report⟩)
  else .ok none

variable {m : Type → Type} [Monad m]

/-- The text of a row of bytes that was read from somewhere. -/
def textOf (source : String) : Except FileError (List UInt8) → Except Failure String
  | .error e => .error (.message (source ++ ": " ++ e.message))
  | .ok bytes =>
    match Text.ofUtf8? bytes with
    | some text => .ok text
    | none => .error (.message (source ++ ": stream did not contain valid UTF-8"))

/-- The style sheet that the arguments ask for: a file, an argument, or the standard input. -/
def readSource (host : Host m) (args : Arguments) : m (Except Failure String) := do
  match args.flags.contains .stdin, args.positionals.head? with
  | true, some css => return .ok css
  | true, none => return textOf "could not read from stdin" (.ok (← host.stdin))
  | false, none => return .error (.message "no input file given, see --help")
  | false, some path => return textOf ("could not read file " ++ path) (← host.files.read path)

/-- The summary of a run that writes a file. -/
def summaryText (elapsed source css : String) : String :=
  banner ++ "Optimized in " ++ elapsed ++ "\n" ++
    "Input size " ++ readableSize source.utf8ByteSize ++ "\n" ++
    "Output size " ++ readableSize css.utf8ByteSize ++ " (" ++
    toString (percentOf css.utf8ByteSize source.utf8ByteSize) ++ "% of original)\n"

/-- Writes the result: to a file, with a summary on the screen, or to the screen. -/
def deliver (host : Host m) (args : Arguments) (source css : String) : m Outcome := do
  match args.positionals[1]? with
  | none => return ⟨0, css, none⟩
  | some path =>
    let summary := summaryText (← host.elapsed) source css
    match ← host.files.write path (Text.toUtf8 css) with
    | .ok () => return ⟨0, summary, none⟩
    | .error e =>
      return .ofFailure summary
        (.message ("could not write to file " ++ path ++ ": " ++ e.message))

/-- Runs the program on arguments that were understood. The style sheet is read before the options
for cleaning are looked at. -/
def runWith (read : Color.Reader) (host : Host m) (args : Arguments) : m Outcome := do
  match ← readSource host args with
  | .error e => return .ofFailure "" e
  | .ok source =>
    match cleanOptions args with
    | .error e => return .ofFailure "" e
    | .ok clean =>
      match ← press read host.files (← host.now) ⟨optimizeOptions args, clean⟩ source with
      | .error e => return .ofFailure "" (.ofPress e)
      | .ok pressed => deliver host args source pressed.css

/-- Runs the program on its arguments. -/
def run (read : Color.Reader) (host : Host m) (args : List String) : m Outcome :=
  match Arguments.none.read none args with
  | .ok args => runWith read host args
  | .error .usage => return ⟨2, "", some helpText⟩
  | .error .help => return ⟨0, helpText, none⟩

end Sheetsmith.Cli
