import Sheetsmith.Cli.Run
import Std.Time.DateTime.Timestamp

namespace Sheetsmith.Machine

/-- The cause of a failed operation on a file. -/
def causeOf : IO.Error → FileError
  | .noFileOrDirectory .. => .notFound
  | .inappropriateType _ 21 _ => .isDirectory
  | .inappropriateType _ 20 _ => .notADirectory
  | error => .other (toString error)

/-- The answer of an operation on a file that may fail. -/
def attempt {α : Type} (action : IO α) : IO (Except FileError α) := do
  match ← action.toBaseIO with
  | .ok a => return .ok a
  | .error e => return .error (causeOf e)

/-- A path on this machine is at most so many bytes long, and so it has no more names than that. -/
def pathLimit : Nat := 4096

/-- The regular files below a directory, by their names on the way down; links are left out. A
directory that cannot be listed counts as empty. -/
def filesBelow : (depth : Nat) → (directory : String) → IO (List (List String))
  | 0, _ => return []
  | depth + 1, directory => do
    let place := (← IO.currentDir) / directory
    let entries ← try place.readDir catch _ => pure #[]
    let names := (entries.map (·.fileName)).toList.mergeSort (· ≤ ·)
    let found ← names.mapM fun (name : String) => do
      match ← (place / name).symlinkMetadata.toBaseIO with
      | .ok status =>
        match status.type with
        | .file => return [[name]]
        | .dir => return (← filesBelow depth (directory ++ "/" ++ name)).map (name :: ·)
        | _ => return []
      | .error _ => return []
    return found.flatten

/-- The files of this machine. The empty path leads nowhere. -/
def files : Files IO where
  isDirectory path := do
    if path.isEmpty then return false else ((← IO.currentDir) / path).isDir
  below path := filesBelow pathLimit path
  read path :=
    if path.isEmpty then return .error .notFound
    else attempt do return (← IO.FS.readBinFile path).toList
  write path content :=
    if path.isEmpty then return .error .notFound
    else attempt (IO.FS.writeBinFile path ⟨content.toArray⟩)

/-- All that is left to read in a stream. -/
def readAll (stream : IO.FS.Stream) : IO (List UInt8) := do
  let mut bytes := ByteArray.empty
  repeat
    let more ← stream.read 65536
    if more.isEmpty then break
    bytes := bytes ++ more
  return bytes.toList

/-- The time of the day. -/
def now : IO String := do
  let time := (← Std.Time.Timestamp.now).toNanosecondsSinceUnixEpoch.val
  return Timestamp.text ⟨time.fdiv 1000000000, (time.fmod 1000000000).toNat⟩

/-- This machine, for a run that starts now. -/
def host : IO (Cli.Host IO) := do
  let start ← IO.monoNanosNow
  return {
    files := files
    stdin := do readAll (← IO.getStdin)
    now := now
    elapsed := return Cli.readableTime ((← IO.monoNanosNow) - start) }

end Sheetsmith.Machine

/-- Runs the program, prints what it has to say and answers how it ended. -/
def main (args : List String) : IO UInt32 := do
  let outcome ← Sheetsmith.Cli.run Sheetsmith.Color.opaqueHex (← Sheetsmith.Machine.host) args
  IO.print outcome.stdout
  match outcome.failure with
  | some text => IO.eprintln text
  | none => pure ()
  return outcome.code.toUInt32
