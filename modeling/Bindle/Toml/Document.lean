import Bindle.Toml.Node
import Bindle.Toml.Scalar

/-!
# TOML documents

A document is a sequence of lines: headers that open a table or an element of an array of tables,
and keys with values that fill the table opened last. The reader turns the text into lines and the
lines into tables. Arrays and inline tables may be nested less than eighty deep, and a dotted key
has less than eighty parts.

The model of how invoice, choice and configuration files are read, section 10.4 of `SPEC_FULL.md`.

Main definitions: `readValue`, `readLines`, `Toml.parse?`.
-/

namespace Bindle.Toml

/-- Nesting and dotted keys stay below this depth. -/
def depthLimit : Nat := 80

/-! ## Line ends and comments -/

/-- The rest after a comment, if one stands there. -/
def skipComment : List Char → List Char
  | '#' :: rest => rest.dropWhile isTextChar
  | cs => cs

/-- The rest after what may follow on a line, up to its end or that of the document. -/
def readLineEnd? (cs : List Char) : Option (List Char) :=
  match skipComment (skipLineSpace cs) with
  | [] => some []
  | cs => readNewline? cs

/-- The rest after white space, comments and line endings, as they may stand in an array. -/
def skipGap : Nat → List Char → Option (List Char)
  | 0, _ => none
  | fuel + 1, cs =>
    match skipLineSpace cs with
    | '#' :: rest =>
      match readNewline? (rest.dropWhile isTextChar) with
      | some rest => skipGap fuel rest
      | none => none
    | '\n' :: rest => skipGap fuel rest
    | '\r' :: rest =>
      match rest with
      | '\n' :: rest => skipGap fuel rest
      | _ => none
    | cs => some cs

/-! ## Keys -/

/-- The characters of a key without quotes. -/
def isKeyChar (c : Char) : Bool :=
  c.isAlphanum || c == '-' || c == '_'

/-- One part of a key. -/
def readKeyPart (cs : List Char) : Option (String × List Char) :=
  match cs with
  | '"' :: rest => (readBasicText (rest.length + 1) rest).map fun (text, rest) =>
    (String.ofList text, rest)
  | '\'' :: rest => (readLiteralText rest).map fun (text, rest) => (String.ofList text, rest)
  | cs =>
    match cs.takeWhile isKeyChar with
    | [] => none
    | part => some (String.ofList part, cs.dropWhile isKeyChar)

/-- The parts of a dotted key, with white space around each, in at most `fuel` parts. -/
def readKey : Nat → List Char → Option (List String × List Char)
  | 0, _ => none
  | fuel + 1, cs => do
    let (part, rest) ← readKeyPart (skipLineSpace cs)
    match skipLineSpace rest with
    | '.' :: rest => do
      let (parts, rest) ← readKey fuel rest
      return (part :: parts, rest)
    | rest => return ([part], rest)

/-- The key in front, which has less parts than the limit. -/
def readPath (cs : List Char) : Option (List String × List Char) :=
  readKey (depthLimit - 1) cs

/-! ## Values -/

/-- The table that an inline table describes. -/
def inlineTable (pairs : List (List String × Toml)) : Option Toml :=
  (pairs.foldlM (fun entries p => insertDotted p.2 true p.1 entries) []).map fun entries =>
    .table (entriesToToml entries)

mutual

/-- The value in front, inside `depth` others. -/
def readValue : Nat → Nat → List Char → Option (Toml × List Char)
  | 0, _, _ => none
  | fuel + 1, depth, cs =>
    match cs with
    | '[' :: rest =>
      if depth + 1 < depthLimit then do
        let rest ← skipGap (rest.length + 1) rest
        match rest with
        | ']' :: rest => return (.array [], rest)
        | rest => do
          let (items, rest) ← readItems fuel (depth + 1) rest
          return (.array items, rest)
      else none
    | '\x7b' :: rest =>
      if depth + 1 < depthLimit then
        match skipLineSpace rest with
        | '\x7d' :: rest => some (.table [], rest)
        | rest => do
          let (pairs, rest) ← readPairs fuel (depth + 1) rest
          let table ← inlineTable pairs
          return (table, rest)
      else none
    | 't' :: 'r' :: 'u' :: 'e' :: rest => some (.boolean true, rest)
    | 'f' :: 'a' :: 'l' :: 's' :: 'e' :: rest => some (.boolean false, rest)
    | '"' :: _ | '\'' :: _ =>
      (readAnyText cs).map fun (text, rest) => (.string (String.ofList text), rest)
    | cs =>
      match readDateTime cs with
      | some result => some result
      | none => readNumber cs

/-- The items of an array up to its closing bracket; the last may have a comma after it. -/
def readItems : Nat → Nat → List Char → Option (List Toml × List Char)
  | 0, _, _ => none
  | fuel + 1, depth, cs => do
    let (item, rest) ← readValue fuel depth cs
    let rest ← skipGap (rest.length + 1) rest
    match rest with
    | ']' :: rest => return ([item], rest)
    | ',' :: rest =>
      let rest ← skipGap (rest.length + 1) rest
      match rest with
      | ']' :: rest => return ([item], rest)
      | rest =>
        let (items, rest) ← readItems fuel depth rest
        return (item :: items, rest)
    | _ => none

/-- The keys and values of an inline table up to its closing brace, all on one line. -/
def readPairs : Nat → Nat → List Char → Option (List (List String × Toml) × List Char)
  | 0, _, _ => none
  | fuel + 1, depth, cs => do
    let (path, rest) ← readPath cs
    let rest ← readChar? '=' rest
    let (value, rest) ← readValue fuel depth (skipLineSpace rest)
    match skipLineSpace rest with
    | '\x7d' :: rest => return ([(path, value)], rest)
    | ',' :: rest =>
      let (pairs, rest) ← readPairs fuel depth rest
      return ((path, value) :: pairs, rest)
    | _ => none

end

/-! ## Lines -/

/-- A line of a document that is not blank. -/
inductive Line where
  | table (path : List String)
  | element (path : List String)
  | entry (path : List String) (value : Toml)

/-- The header or the entry in front, with the end of its line. -/
def readLine (cs : List Char) : Option (Line × List Char) :=
  match cs with
  | '[' :: '[' :: rest => do
    let (path, rest) ← readPath rest
    let rest ← readChar? ']' rest
    let rest ← readChar? ']' rest
    let rest ← readLineEnd? rest
    return (.element path, rest)
  | '[' :: rest => do
    let (path, rest) ← readPath rest
    let rest ← readChar? ']' rest
    let rest ← readLineEnd? rest
    return (.table path, rest)
  | cs => do
    let (path, rest) ← readPath cs
    let rest ← readChar? '=' rest
    let (value, rest) ← readValue (3 * rest.length + 1) 0 (skipLineSpace rest)
    let rest ← readLineEnd? rest
    return (.entry path value, rest)

/-- The lines of a document, in at most `fuel` steps. -/
def readLines : Nat → List Char → Option (List Line)
  | 0, _ => none
  | fuel + 1, cs =>
    match skipLineSpace cs with
    | [] => some []
    | '#' :: rest => do readLines fuel (← readLineEnd? ('#' :: rest))
    | '\n' :: rest => readLines fuel rest
    | '\r' :: rest => do readLines fuel (← readNewline? ('\r' :: rest))
    | cs => do
      let (line, rest) ← readLine cs
      return line :: (← readLines fuel rest)

/-! ## Tables -/

/-- The entries up to the next header, and the lines from there on. -/
def splitSection : List Line → List (List String × Toml) × List Line
  | .entry path value :: lines =>
    let (entries, rest) := splitSection lines
    ((path, value) :: entries, rest)
  | lines => ([], lines)

/-- Puts entries into an open table, one after another. -/
def fill (pairs : List (List String × Toml)) (entries : Entries) : Option Entries :=
  pairs.foldlM (fun entries p => insertDotted p.2 true p.1 entries) entries

/-- Adds the sections that the lines make up to the tables of the document. -/
def addSections : Nat → List Line → Entries → Option Entries
  | 0, _, _ => none
  | fuel + 1, lines, root =>
    match lines with
    | [] => some root
    | .table path :: lines => do
      let (pairs, rest) := splitSection lines
      addSections fuel rest (← openTable (fill pairs) path root)
    | .element path :: lines => do
      let (pairs, rest) := splitSection lines
      addSections fuel rest (← openElement (fill pairs) path root)
    | .entry path value :: lines => do
      let (pairs, rest) := splitSection (.entry path value :: lines)
      addSections fuel rest (← fill pairs root)

/-- The root table of a document; a byte order mark in front is skipped. -/
def parse? (text : String) : Option Toml := do
  let cs := match text.toList with
    | '\ufeff' :: rest => rest
    | cs => cs
  let lines ← readLines (cs.length + 1) cs
  let entries ← addSections (lines.length + 1) lines []
  return .table (entriesToToml entries)

/-- What a message says about a text that is no document. -/
def parseErrorText : String := "TOML parse error"

end Bindle.Toml
