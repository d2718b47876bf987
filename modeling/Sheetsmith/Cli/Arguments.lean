import Sheetsmith.Text.Split

namespace Sheetsmith.Cli

/-- An option without a value. -/
inductive Flag where
  | mergeGroups
  | removeHacks
  | stdin
  | clean
  | verbose
deriving DecidableEq

/-- An option with a value. -/
inductive Setting where
  | compress
  | optimize
  | vendors
  | paths
  | mode
  | extensions
  | report
deriving DecidableEq

/-- An option of either kind. -/
inductive Switch where
  | flag (flag : Flag)
  | setting (setting : Setting)
  | help

/-- The option of a long name. -/
def Switch.ofLong? : String → Option Switch
  | "extra" => some (.flag .mergeGroups)
  | "remove-ie-hacks" => some (.flag .removeHacks)
  | "stdin" => some (.flag .stdin)
  | "clean" => some (.flag .clean)
  | "verbose" => some (.flag .verbose)
  | "compress" => some (.setting .compress)
  | "optimize" => some (.setting .optimize)
  | "vendors" => some (.setting .vendors)
  | "paths" => some (.setting .paths)
  | "mode" => some (.setting .mode)
  | "extensions" => some (.setting .extensions)
  | "report" => some (.setting .report)
  | "help" => some .help
  | _ => none

/-- The option of a letter. -/
def Switch.ofShort? : Char → Option Switch
  | 'x' => some (.flag .mergeGroups)
  | 'r' => some (.flag .stdin)
  | 'u' => some (.flag .clean)
  | 'c' => some (.setting .compress)
  | 'o' => some (.setting .optimize)
  | 'v' => some (.setting .vendors)
  | 'p' => some (.setting .paths)
  | 'm' => some (.setting .mode)
  | 'e' => some (.setting .extensions)
  | 'h' => some .help
  | _ => none

/-- Why the arguments give no work to do. -/
inductive Refusal where
  /-- The arguments cannot be understood. -/
  | usage
  /-- The user asks how to use the program. -/
  | help
deriving DecidableEq

/-- The arguments, sorted. Options and the names of files may stand in any order. -/
structure Arguments where
  flags : List Flag
  settings : List (Setting × String)
  positionals : List String

namespace Arguments

/-- No arguments. -/
def none : Arguments := ⟨[], [], []⟩

/-- Takes in a flag, which must be the first of its kind. -/
def addFlag (args : Arguments) (flag : Flag) : Except Refusal Arguments :=
  if args.flags.contains flag then .error .usage
  else .ok { args with flags := args.flags ++ [flag] }

/-- Whether a value may be given to a setting: two of them are yes or no, and the path of a report
is not empty. -/
def accepts (setting : Setting) (value : String) : Bool :=
  match setting with
  | .compress | .optimize => value == "true" || value == "false"
  | .report => !value.isEmpty
  | _ => true

/-- The value of a setting. -/
def value? (args : Arguments) (setting : Setting) : Option String :=
  args.settings.lookup setting

/-- Takes in a setting, which must be the first of its kind. -/
def addSetting (args : Arguments) (setting : Setting) (value : String) :
    Except Refusal Arguments :=
  if (args.value? setting).isSome || !accepts setting value then .error .usage
  else .ok { args with settings := args.settings ++ [(setting, value)] }

/-- Takes in the name of a file. There are at most two, and the second is not empty. -/
def addPositional (args : Arguments) (name : String) : Except Refusal Arguments :=
  match args.positionals with
  | [] => .ok { args with positionals := [name] }
  | [input] => if name.isEmpty then .error .usage else .ok { args with positionals := [input, name] }
  | _ => .error .usage

/-- Whether an argument looks like an option. -/
def isOption (arg : String) : Bool :=
  arg.toList.head? == some '-' && arg != "-"

/-- Takes in a group of letters behind one hyphen. A setting at the end of the group is still
without its value; otherwise the rest of the group is its value, an equals sign in front left out. -/
def addLetters (args : Arguments) : List Char → Except Refusal (Arguments × Option Setting)
  | [] => .ok (args, Option.none)
  | letter :: rest =>
    match Switch.ofShort? letter with
    | some (.flag flag) => do (← args.addFlag flag).addLetters rest
    | some (.setting setting) =>
      match rest with
      | [] => .ok (args, some setting)
      | '=' :: value => return (← args.addSetting setting (String.ofList value), Option.none)
      | value => return (← args.addSetting setting (String.ofList value), Option.none)
    | some .help => .error .help
    | Option.none => .error .usage

/-- Takes in a long option without its two hyphens; a setting without an equals sign is still
without its value. -/
def addLong (args : Arguments) (text : List Char) :
    Except Refusal (Arguments × Option Setting) :=
  let (name, value) :=
    match Text.splitAtFirst? '=' text with
    | some (name, value) => (name, some (String.ofList value))
    | Option.none => (text, Option.none)
  match Switch.ofLong? (String.ofList name), value with
  | some (.flag flag), Option.none => return (← args.addFlag flag, Option.none)
  | some (.setting setting), some value => return (← args.addSetting setting value, Option.none)
  | some (.setting setting), Option.none => .ok (args, some setting)
  | some .help, Option.none => .error .help
  | _, _ => .error .usage

/-- Takes in one argument that is not the value of a setting; answers the setting that waits for a
value. -/
def addOne (args : Arguments) (arg : String) : Except Refusal (Arguments × Option Setting) :=
  match arg.toList with
  | '-' :: '-' :: text => args.addLong text
  | '-' :: letter :: letters => args.addLetters (letter :: letters)
  | _ => return (← args.addPositional arg, Option.none)

/-- Reads a list of arguments behind those taken in already. `waiting` is the setting that waits for
a value. Behind `--` there are no options. -/
def read (args : Arguments) (waiting : Option Setting) : List String → Except Refusal Arguments
  | [] => if waiting.isSome then .error .usage else .ok args
  | arg :: rest =>
    match waiting with
    | some setting =>
      if isOption arg then .error .usage
      else do (← args.addSetting setting arg).read Option.none rest
    | Option.none =>
      if arg = "--" then rest.foldlM addPositional args
      else do
        let (args, waiting) ← args.addOne arg
        args.read waiting rest

end Arguments

end Sheetsmith.Cli
