import Bindle.Files.Reading

/-!
# File trees

A file tree in memory: files under absolute paths, and with each file the directories that it lies
in. Reading a path walks it name by name, as a file system does, so that a path through a file or
through a missing directory fails even if the names after it would lead out again.

* `FileTree`, `FileTree.entry?`: the tree and what lies at a path.
* `FileTree.walk`: where a walk leads.
* `FileTree.read`: what reading each path gives.
-/

namespace Bindle

/-- What lies at a path. -/
inductive FileEntry where
  | file (text : String)
  | directory
  deriving DecidableEq

/-- Files, and directories that may hold none. Paths are lists of names from the root. -/
structure FileTree where
  files : List (List String × String)
  directories : List Directory
  deriving DecidableEq

namespace FileTree

/-- Whether a path is that of a directory, which every part of a path in front is. -/
def hasDirectory (t : FileTree) (path : List String) : Bool :=
  path.isEmpty || t.directories.any (path.isPrefixOf ·) || t.files.any (path.isPrefixOf ·.1)

/-- What lies at a path. -/
def entry? (t : FileTree) (path : List String) : Option FileEntry :=
  match t.files.lookup path with
  | some text => some (.file text)
  | none => if t.hasDirectory path then some .directory else none

/-! ## Walking -/

/-- A name has less than this many bytes. -/
def nameLimit : Nat := 256

/-- A path has less than this many bytes. -/
def pathLimit : Nat := 4096

/-- Where a walk along the names of a path leads. -/
def walk (t : FileTree) (here : List String) : List String → Except FileError (List String)
  | [] => .ok here
  | name :: rest =>
    match t.entry? here with
    | none => .error .notFound
    | some (.file _) => .error .notADirectory
    | some .directory =>
      if name = "." then t.walk here rest
      else if name = ".." then t.walk here.dropLast rest
      else if nameLimit ≤ name.utf8ByteSize then .error .nameTooLong
      else if (t.entry? (here ++ [name])).isNone then .error .notFound
      else t.walk (here ++ [name]) rest

/-- The names that parts of a path stand for. An empty part stands for none, but at the end it
leads to the place itself, as a dot does. -/
def namesOf : List (List Char) → List String
  | [] => []
  | [[]] => ["."]
  | [] :: parts => namesOf parts
  | part :: parts => String.ofList part :: namesOf parts

/-- Where a path leads, seen from a directory. -/
def locate (t : FileTree) (here : Directory) (path : String) : Except FileError (List String) :=
  if path = "" then .error .notFound
  else if pathLimit ≤ path.utf8ByteSize then .error .nameTooLong
  else
    let start := if path.toList.head? = some '/' then [] else here
    t.walk start (namesOf (splitSlash path.toList))

/-- What reading each path gives, seen from a directory. -/
def read (t : FileTree) (here : Directory) : Files := fun path => do
  let place ← t.locate here path
  match t.entry? place with
  | some (.file text) => .ok text
  | some .directory => .error .isADirectory
  | none => .error .notFound

/-! ## Examples -/

example : ((FileTree.mk [(["a", "b"], "text")] []).read [] "a/../a//b").toOption = some "text" := by
  decide +kernel

example : ((FileTree.mk [(["a", "b"], "text")] []).read ["a"] "b/").toOption = none := by
  decide +kernel

example : ((FileTree.mk [(["a", "b"], "text")] []).read [] "c/../a/b").toOption = none := by
  decide +kernel

end FileTree

end Bindle
