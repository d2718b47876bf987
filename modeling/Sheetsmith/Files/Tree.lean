import Sheetsmith.Files.Basic
import Sheetsmith.Text.Split

namespace Sheetsmith

/-- What stands at a place. -/
inductive FileEntry where
  | file (content : List UInt8)
  | directory
  /-- A link to a path, seen from the directory that the link is in. -/
  | link (target : String)
deriving DecidableEq

/-- The names on the way from the top to a place. -/
abbrev Place := List String

/-- The working directory and all places that were made. The working directory, and directories on
the way to a place, need no entry of their own. -/
structure FileTree where
  workingDirectory : Place
  entries : List (Place × FileEntry)
deriving DecidableEq

namespace FileTree

/-- The tree with the given entries below its working directory and nothing else. -/
def ofEntries (workingDirectory : Place) (entries : List (Place × FileEntry)) : FileTree :=
  ⟨workingDirectory, entries.map fun (place, entry) => (workingDirectory ++ place, entry)⟩

/-- The entries below the working directory, by their places seen from there. -/
def localEntries (t : FileTree) : List (Place × FileEntry) :=
  t.entries.filterMap fun (place, entry) =>
    if t.workingDirectory.isPrefixOf place then
      some (place.drop t.workingDirectory.length, entry)
    else none

/-- What stands at a place. -/
def entry? (t : FileTree) (place : Place) : Option FileEntry :=
  match t.entries.lookup place with
  | some entry => some entry
  | none =>
    if place.isPrefixOf t.workingDirectory || t.entries.any fun e => place.isPrefixOf e.1 then
      some .directory
    else none

/-- The names of a path; an empty name stands for the place itself. -/
def pathNames (path : String) : List String :=
  (Text.splitAtEach '/' path.toList).map String.ofList

/-- Where a path leads. -/
inductive Target where
  | found (place : Place) (entry : FileEntry)
  /-- Nothing is there, but a file could be made. -/
  | free (place : Place)

/-- The longest name of a file, in bytes. -/
def nameLimit : Nat := 255

/-- The longest path, in bytes. -/
def pathLimit : Nat := 4095

/-- Where a path starts: at the top if it says so, or else at the given place. -/
def startOf (here : Place) (path : String) : Place :=
  if path.toList.head? = some '/' then [] else here

/-- Follows names from a place, through at most `links` links. The top is its own parent. A slash
behind the last name, of the path or of a link that is followed at its end, asks for a directory;
with `create` it is refused at once, since only files are made. -/
def follow (t : FileTree) (create : Bool) (links : Nat) (here : Place) (names : List String) :
    Except FileError Target :=
  match names with
  | [] => .ok (.found here .directory)
  | name :: rest =>
    if name = "" ∨ name = "." then t.follow create links here rest
    else if name = ".." then t.follow create links here.dropLast rest
    else if create && !rest.isEmpty && rest.all String.isEmpty then .error .isDirectory
    else if nameLimit < name.utf8ByteSize then .error .nameTooLong
    else
      let place := here ++ [name]
      match t.entry? place with
      | none => if rest.isEmpty then .ok (.free place) else .error .notFound
      | some .directory => t.follow create links place rest
      | some (.file content) =>
        if rest.isEmpty then .ok (.found place (.file content)) else .error .notADirectory
      | some (.link target) =>
        match links with
        | 0 => .error .tooManyLinks
        | links + 1 => t.follow create links (startOf here target) (pathNames target ++ rest)
termination_by (links, names.length)

/-- How many links a path may go through. -/
def linkLimit : Nat := 40

/-- Where a path leads; with `create`, for a file to be written there. The empty path leads
nowhere. -/
def target (t : FileTree) (create : Bool) (path : String) : Except FileError Target :=
  if path.toList.contains '\x00' then .error .nulInPath
  else if pathLimit < path.utf8ByteSize then .error .nameTooLong
  else if path = "" then .error .notFound
  else t.follow create linkLimit (startOf t.workingDirectory path) (pathNames path)

/-- Whether a path leads to a directory. -/
def isDirectory (t : FileTree) (path : String) : Bool :=
  match t.target false path with
  | .ok (.found _ .directory) => true
  | _ => false

/-- The content of the file that a path leads to. -/
def read (t : FileTree) (path : String) : Except FileError (List UInt8) := do
  match ← t.target false path with
  | .found _ (.file content) => .ok content
  | .found _ .directory => .error .isDirectory
  | .found _ (.link _) => .error .tooManyLinks
  | .free _ => .error .notFound

/-- Whether a list of names comes before another, name by name. -/
def placeBefore : Place → Place → Bool
  | [], _ => true
  | _ :: _, [] => false
  | a :: as, b :: bs => a < b || a == b && placeBefore as bs

/-- The regular files below the directory that a path leads to. -/
def below (t : FileTree) (path : String) : List Place :=
  match t.target false path with
  | .ok (.found place .directory) =>
    let found := t.entries.filterMap fun
      | (p, .file _) => if place.isPrefixOf p then some (p.drop place.length) else none
      | _ => none
    found.mergeSort placeBefore
  | _ => []

/-- Puts an entry at a place. -/
def put (t : FileTree) (place : Place) (entry : FileEntry) : FileTree :=
  { t with entries := (place, entry) :: t.entries.filter (·.1 != place) }

/-- Puts a content into the file that a path leads to. -/
def write (t : FileTree) (path : String) (content : List UInt8) : Except FileError FileTree := do
  match ← t.target true path with
  | .found place (.file _) | .free place => .ok (t.put place (.file content))
  | .found _ .directory => .error .isDirectory
  | .found _ (.link _) => .error .tooManyLinks

/-- The operations on a tree in memory. -/
def files : Files (StateM FileTree) where
  isDirectory path := return (← get).isDirectory path
  below path := return (← get).below path
  read path := return (← get).read path
  write path content := do
    match (← get).write path content with
    | .ok t =>
      set t
      return .ok ()
    | .error e => return .error e

end FileTree

end Sheetsmith
