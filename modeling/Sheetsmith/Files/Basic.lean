namespace Sheetsmith

/-- Why a file cannot be read or written. -/
inductive FileError where
  | notFound
  | isDirectory
  | notADirectory
  | tooManyLinks
  | nameTooLong
  /-- The path holds the character that ends texts on the machine. -/
  | nulInPath
  /-- Anything else, in the words of the machine. -/
  | other (text : String)
deriving DecidableEq

/-- The text shown to the user. -/
def FileError.message : FileError → String
  | .notFound => "No such file or directory (os error 2)"
  | .isDirectory => "Is a directory (os error 21)"
  | .notADirectory => "Not a directory (os error 20)"
  | .tooManyLinks => "Too many levels of symbolic links (os error 40)"
  | .nameTooLong => "File name too long (os error 36)"
  | .nulInPath => "file name contained an unexpected NUL byte"
  | .other text => text

/-- What the program asks of files. The answers come from the machine that it runs on, or from a
tree of files in memory. -/
structure Files (m : Type → Type) where
  /-- Whether a path leads to a directory. -/
  isDirectory : String → m Bool
  /-- The regular files below a directory, by their names on the way down, in the order of those
  names. Links below the directory are left out. -/
  below : String → m (List (List String))
  /-- The content of a file. -/
  read : String → m (Except FileError (List UInt8))
  /-- Puts a content in place of that of a file, which is created if need be. -/
  write : String → List UInt8 → m (Except FileError Unit)

end Sheetsmith
