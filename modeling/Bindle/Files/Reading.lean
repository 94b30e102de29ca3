/-!
# Reading files

What a program learns of a file system here is what comes back when it reads a path: the text of a
file, or the reason why there is none. A directory is told from everything else by the reason, so
no other question has to be asked.

Main definitions: `FileError`, `Files`, `Files.isDirectory`, `Files.has`, `Directory`.
-/

namespace Bindle

/-- Why reading a path gives no text. -/
inductive FileError where
  | notFound
  | notADirectory
  | isADirectory
  | nameTooLong
  /-- Anything else, in words. -/
  | other (message : String)
  deriving DecidableEq

/-- The message of an error. -/
def FileError.message : FileError → String
  | .notFound => "No such file or directory (os error 2)"
  | .notADirectory => "Not a directory (os error 20)"
  | .isADirectory => "Is a directory (os error 21)"
  | .nameTooLong => "File name too long (os error 36)"
  | .other message => message

/-- What reading each path gives. -/
abbrev Files := String → Except FileError String

namespace Files

/-- Whether a path leads to a directory. -/
def isDirectory (files : Files) (path : String) : Bool :=
  match files path with
  | .error .isADirectory => true
  | _ => false

/-- Whether a path leads to anything. -/
def has (files : Files) (path : String) : Bool :=
  match files path with
  | .error .notFound => false
  | .error .notADirectory => false
  | .error .nameTooLong => false
  | _ => true

end Files

/-! ## Absolute paths -/

/-- The parts of a path between its slashes. -/
def splitSlash : List Char → List (List Char)
  | [] => [[]]
  | '/' :: rest => [] :: splitSlash rest
  | c :: rest =>
    match splitSlash rest with
    | [] => [[c]]
    | part :: parts => (c :: part) :: parts

/-- The directory in which the named entries lie one inside the other, the outermost first. -/
abbrev Directory := List String

namespace Directory

/-- The directory with that absolute path. -/
def ofPath (path : String) : Directory :=
  ((splitSlash path.toList).filter (· ≠ [])).map String.ofList

/-- The absolute path of a directory. -/
def toPath (d : Directory) : String :=
  "/" ++ "/".intercalate d

/-- The directory and those around it, the innermost first. -/
def outward (d : Directory) : List Directory :=
  (List.range (d.length + 1)).reverse.map fun n => d.take n

/-- The absolute path of what lies below a directory. -/
def below (d : Directory) (names : List String) : String :=
  toPath (d ++ names)

end Directory

end Bindle
