import Bindle.Toml.Value

/-!
# Tables in the making

The lines of a document fill tables that are still open. A table may be opened once by a header of
its own, also after a header below it has implied it; a table that dotted keys made can only be
filled by dotted keys from the same place, though a header may still open tables below it.
Everything else that names a table or a key twice is refused.

Main definitions: `Node`, `insertDotted`, `openTable`, `openElement`, `Node.toToml`.
-/

namespace Bindle.Toml

/-- How a table came to be. -/
inductive Origin where
  /-- By a header of its own. -/
  | header
  /-- As a table on the way to one with a header. -/
  | implied
  /-- By a dotted key. -/
  | dotted
  deriving DecidableEq

/-- What stands under a key while the document is read. -/
inductive Node where
  | value (v : Toml)
  | table (origin : Origin) (entries : List (String × Node))
  /-- The tables of an array, of which the last is open. -/
  | tables (elements : List (List (String × Node)))

/-- The entries of an open table. -/
abbrev Entries := List (String × Node)

/-- The entries with another node under a key that is there. -/
def replace (key : String) (node : Node) (entries : Entries) : Entries :=
  entries.map fun e => if e.1 = key then (key, node) else e

/-- The elements with the last one changed. -/
def modifyLast (f : Entries → Option Entries) : List Entries → Option (List Entries)
  | [] => none
  | [last] => (f last).map ([·])
  | first :: rest => (modifyLast f rest).map (first :: ·)

/-- Puts a value under a dotted key. The table that takes it accepts values of its own, or else it
was made by dotted keys. -/
def insertDotted (value : Toml) : (accepts : Bool) → List String → Entries → Option Entries
  | _, [], _ => none
  | accepts, [key], entries =>
    if accepts && (entries.lookup key).isNone then some (entries ++ [(key, .value value)])
    else none
  | _, key :: path, entries =>
    match entries.lookup key with
    | none => (insertDotted value true path []).map fun inner =>
      entries ++ [(key, .table .dotted inner)]
    | some (.value _) => none
    | some (.table .header _) => none
    | some (.table origin inner) =>
      (insertDotted value (origin = .dotted) path inner).map fun inner =>
        replace key (.table origin inner) entries
    | some (.tables elements) =>
      (modifyLast (insertDotted value false path) elements).map fun elements =>
        replace key (.tables elements) entries

/-- Walks to the table that holds the last key of a header and changes it there. -/
def descend (atEnd : String → Entries → Option Entries) : List String → Entries → Option Entries
  | [], _ => none
  | [key], entries => atEnd key entries
  | key :: path, entries =>
    match entries.lookup key with
    | none => (descend atEnd path []).map fun inner => entries ++ [(key, .table .implied inner)]
    | some (.value _) => none
    | some (.table origin inner) => (descend atEnd path inner).map fun inner =>
      replace key (.table origin inner) entries
    | some (.tables elements) => (modifyLast (descend atEnd path) elements).map fun elements =>
      replace key (.tables elements) entries

/-- Opens the table with the given path and fills it. -/
def openTable (fill : Entries → Option Entries) : List String → Entries → Option Entries :=
  descend fun key entries =>
    match entries.lookup key with
    | none => (fill []).map fun inner => entries ++ [(key, .table .header inner)]
    | some (.table .implied inner) => (fill inner).map fun inner =>
      replace key (.table .header inner) entries
    | some _ => none

/-- Opens a further element of the array with the given path and fills it. -/
def openElement (fill : Entries → Option Entries) : List String → Entries → Option Entries :=
  descend fun key entries =>
    match entries.lookup key with
    | none => (fill []).map fun inner => entries ++ [(key, .tables [inner])]
    | some (.tables elements) => (fill []).map fun inner =>
      replace key (.tables (elements ++ [inner])) entries
    | some _ => none

mutual

/-- The finished value of a node. -/
def Node.toToml : Node → Toml
  | .value v => v
  | .table _ entries => .table (entriesToToml entries)
  | .tables elements => .array (elementsToToml elements)

/-- The finished entries of a table. -/
def entriesToToml : List (String × Node) → List (String × Toml)
  | [] => []
  | (key, node) :: entries => (key, node.toToml) :: entriesToToml entries

/-- The finished elements of an array of tables. -/
def elementsToToml : List (List (String × Node)) → List Toml
  | [] => []
  | entries :: elements => .table (entriesToToml entries) :: elementsToToml elements

end

end Bindle.Toml
