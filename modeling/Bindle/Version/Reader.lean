import Bindle.Version.Basic
import Bindle.Text.Quoted

/-!
# Reading versions

A version is read from left to right and the first thing that does not fit is reported, with the
part that was being read. Numbers stay below 2 ^ 64 and have no superfluous zero in front; nor do
the numeric identifiers of a pre-release.

The model of the check on versions in section 3 of `SPEC_FULL.md`, the error `InvalidVersion`.

Main definitions: `VersionError`, `Version.parse`.
-/

namespace Bindle

/-- The parts of a version in which something can be wrong. -/
inductive VersionPart where
  | major
  | minor
  | patch
  | preRelease
  | build
  deriving DecidableEq

/-- What a message calls the part. -/
def VersionPart.toText : VersionPart → String
  | .major => "major version number"
  | .minor => "minor version number"
  | .patch => "patch version number"
  | .preRelease => "pre-release identifier"
  | .build => "build metadata"

/-- Why a text is no version. -/
inductive VersionError where
  | emptyText
  | unexpectedEnd (part : VersionPart)
  | unexpectedCharacter (c : Char) (part : VersionPart)
  | unexpectedAfter (c : Char) (part : VersionPart)
  | leadingZero (part : VersionPart)
  | tooLarge (part : VersionPart)
  | emptySegment (part : VersionPart)
  deriving DecidableEq

/-- The message of an error. -/
def VersionError.message : VersionError → String
  | .emptyText => "empty string, expected a semver version"
  | .unexpectedEnd part => s!"unexpected end of input while parsing {part.toText}"
  | .unexpectedCharacter c part =>
    s!"unexpected character {Text.quotedChar c} while parsing {part.toText}"
  | .unexpectedAfter c part => s!"unexpected character {Text.quotedChar c} after {part.toText}"
  | .leadingZero part => s!"invalid leading zero in {part.toText}"
  | .tooLarge part => s!"value of {part.toText} exceeds u64::MAX"
  | .emptySegment part => s!"empty identifier segment in {part.toText}"

namespace Version

/-! ## Numbers -/

/-- The number in front. -/
def readNumber (part : VersionPart) (cs : List Char) : Except VersionError (Nat × List Char) :=
  match cs.takeWhile Char.isDigit, cs.dropWhile Char.isDigit with
  | [], [] => .error (.unexpectedEnd part)
  | [], c :: _ => .error (.unexpectedCharacter c part)
  | '0' :: _ :: _, _ => .error (.leadingZero part)
  | digits, rest =>
    let n := Nat.ofDigitChars 10 digits 0
    if n < UInt64.size then .ok (n, rest) else .error (.tooLarge part)

/-- The rest after the dot that must follow a number. -/
def readDot (part : VersionPart) : List Char → Except VersionError (List Char)
  | '.' :: rest => .ok rest
  | c :: _ => .error (.unexpectedAfter c part)
  | [] => .error (.unexpectedEnd part)

/-! ## Identifiers -/

/-- The characters of identifiers: ASCII letters, digits and the hyphen. -/
def isIdentifierChar (c : Char) : Bool :=
  c.isAlphanum || c == '-'

theorem length_dropWhile_tail_lt {p : Char → Bool} {cs rest : List Char} {c : Char}
    (h : cs.dropWhile p = c :: rest) : rest.length < cs.length := by
  have := (List.dropWhile_sublist p (l := cs)).length_le
  rw [h, List.length_cons] at this
  omega

/-- The dot-separated identifiers in front; each must be accepted by `check`. -/
def readIdentifiers {α : Type} (part : VersionPart)
    (check : List Char → Except VersionError α) (cs : List Char) :
    Except VersionError (List α × List Char) :=
  match cs.takeWhile isIdentifierChar with
  | [] => .error (.emptySegment part)
  | segment => do
    let first ← check segment
    match _h : cs.dropWhile isIdentifierChar with
    | '.' :: rest =>
      let (more, rest) ← readIdentifiers part check rest
      return (first :: more, rest)
    | rest => return ([first], rest)
  termination_by cs.length
  decreasing_by exact length_dropWhile_tail_lt _h

/-- A pre-release identifier: of digits only it is a number, written without superfluous zero. -/
def preIdentifier (segment : List Char) : Except VersionError PreIdentifier :=
  if segment.all Char.isDigit then
    match segment with
    | '0' :: _ :: _ => .error (.leadingZero .preRelease)
    | digits => .ok (.number (Nat.ofDigitChars 10 digits 0))
  else .ok (.word (String.ofList segment))

/-- The pre-release in front, if a hyphen announces one. -/
def readPreRelease : List Char → Except VersionError (PreRelease × List Char)
  | '-' :: rest => readIdentifiers .preRelease preIdentifier rest
  | cs => .ok ([], cs)

/-- The build in front, if a plus sign announces one. -/
def readBuild : List Char → Except VersionError (List String × List Char)
  | '+' :: rest => readIdentifiers .build (fun segment => .ok (String.ofList segment)) rest
  | cs => .ok ([], cs)

/-! ## Whole versions -/

/-- The last part read before whatever is left over. -/
def lastPart (preRelease : PreRelease) (build : List String) : VersionPart :=
  if build ≠ [] then .build else if preRelease ≠ [] then .preRelease else .patch

/-- The version that the characters spell. -/
def parseChars (cs : List Char) : Except VersionError Version := do
  if cs = [] then .error .emptyText
  let (major, cs) ← readNumber .major cs
  let cs ← readDot .major cs
  let (minor, cs) ← readNumber .minor cs
  let cs ← readDot .minor cs
  let (patch, cs) ← readNumber .patch cs
  let (preRelease, cs) ← readPreRelease cs
  let (build, cs) ← readBuild cs
  match cs with
  | [] => .ok ⟨major, minor, patch, preRelease, build⟩
  | c :: _ => .error (.unexpectedAfter c (lastPart preRelease build))

/-- The version that a text spells; blanks around it are not allowed. -/
def parse (text : String) : Except VersionError Version :=
  parseChars text.toList

end Version

end Bindle
