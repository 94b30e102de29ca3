import Bindle.Version.Reader
import Bindle.Text.Blank

/-!
# Version requirements

A requirement is a list of comparators separated by commas, and a version has to match all of
them. A comparator names a version of which minor and patch may be left out or be wildcards. A
version with a pre-release matches only if some comparator with the same three numbers has a
pre-release too, so nobody gets a pre-release unasked.

In a requirement on an invoice a text that starts with a digit is an exact pin, the empty text
matches everything and a text that is no requirement matches nothing.

The model of `version_in_range` in section 4.1 of `SPEC_FULL.md`.

Main definitions: `Comparator`, `Requirement.parse?`, `Requirement.accepts`, `Version.inRange`.
-/

namespace Bindle

/-- How a comparator compares. -/
inductive Operator where
  | exact
  | greater
  | greaterOrEqual
  | less
  | lessOrEqual
  | tilde
  | caret
  | wildcard
  deriving DecidableEq

/-- An operator and the version it compares with, of which only the major number is certain. -/
structure Comparator where
  operator : Operator
  major : Nat
  minor : Option Nat
  patch : Option Nat
  preRelease : PreRelease
  deriving DecidableEq

/-- All comparators of a requirement; none matches every release. -/
structure Requirement where
  comparators : List Comparator
  deriving DecidableEq

/-! ## Matching -/

namespace Comparator

/-- The given numbers are those of the version, and so is the pre-release. -/
def matchesExact (c : Comparator) (v : Version) : Bool :=
  v.major == c.major && c.minor.all (· == v.minor) && c.patch.all (· == v.patch) &&
    decide (v.preRelease = c.preRelease)

/-- The version comes after the comparator's; numbers that are not given decide against it. -/
def matchesGreater (c : Comparator) (v : Version) : Bool :=
  if v.major ≠ c.major then v.major > c.major
  else match c.minor with
  | none => false
  | some minor =>
    if v.minor ≠ minor then v.minor > minor
    else match c.patch with
    | none => false
    | some patch =>
      if v.patch ≠ patch then v.patch > patch
      else PreRelease.compare v.preRelease c.preRelease == .gt

/-- The version comes before the comparator's; numbers that are not given decide against it. -/
def matchesLess (c : Comparator) (v : Version) : Bool :=
  if v.major ≠ c.major then v.major < c.major
  else match c.minor with
  | none => false
  | some minor =>
    if v.minor ≠ minor then v.minor < minor
    else match c.patch with
    | none => false
    | some patch =>
      if v.patch ≠ patch then v.patch < patch
      else PreRelease.compare v.preRelease c.preRelease == .lt

/-- The version differs from the comparator's by a later patch at most. -/
def matchesTilde (c : Comparator) (v : Version) : Bool :=
  if v.major ≠ c.major then false
  else if c.minor.any (· != v.minor) then false
  else match c.patch with
  | none => PreRelease.compare v.preRelease c.preRelease != .lt
  | some patch =>
    if v.patch ≠ patch then v.patch > patch
    else PreRelease.compare v.preRelease c.preRelease != .lt

/-- The version is not before the comparator's and has the same first number that is not zero. -/
def matchesCaret (c : Comparator) (v : Version) : Bool :=
  if v.major ≠ c.major then false
  else match c.minor with
  | none => true
  | some minor =>
    match c.patch with
    | none => if c.major > 0 then v.minor ≥ minor else v.minor == minor
    | some patch =>
      let notBefore := PreRelease.compare v.preRelease c.preRelease != .lt
      if c.major > 0 then
        if v.minor ≠ minor then v.minor > minor
        else if v.patch ≠ patch then v.patch > patch
        else notBefore
      else if minor > 0 then
        if v.minor ≠ minor then false
        else if v.patch ≠ patch then v.patch > patch
        else notBefore
      else if v.minor ≠ minor ∨ v.patch ≠ patch then false
      else notBefore

/-- Whether a version matches, leaving aside the rule on pre-releases. -/
def accepts (c : Comparator) (v : Version) : Bool :=
  match c.operator with
  | .exact | .wildcard => c.matchesExact v
  | .greater => c.matchesGreater v
  | .greaterOrEqual => c.matchesExact v || c.matchesGreater v
  | .less => c.matchesLess v
  | .lessOrEqual => c.matchesExact v || c.matchesLess v
  | .tilde => c.matchesTilde v
  | .caret => c.matchesCaret v

/-- Whether the comparator asks for pre-releases of exactly the version's three numbers. -/
def allowsPreRelease (c : Comparator) (v : Version) : Bool :=
  c.major == v.major && c.minor == some v.minor && c.patch == some v.patch &&
    decide (c.preRelease ≠ [])

end Comparator

/-- Whether a version meets the requirement. -/
def Requirement.accepts (r : Requirement) (v : Version) : Bool :=
  r.comparators.all (·.accepts v) &&
    (decide (v.preRelease = []) || r.comparators.any (·.allowsPreRelease v))

/-! ## Reading -/

namespace Requirement

/-- The rest after spaces; other blanks do not count. -/
def skipSpaces (cs : List Char) : List Char :=
  cs.dropWhile (· == ' ')

/-- The rest after a wildcard. -/
def wildcard? : List Char → Option (List Char)
  | '*' :: rest => some rest
  | 'x' :: rest => some rest
  | 'X' :: rest => some rest
  | _ => none

/-- The operator in front, if one is written. -/
def readOperator : List Char → Option Operator × List Char
  | '=' :: rest => (some .exact, rest)
  | '>' :: '=' :: rest => (some .greaterOrEqual, rest)
  | '>' :: rest => (some .greater, rest)
  | '<' :: '=' :: rest => (some .lessOrEqual, rest)
  | '<' :: rest => (some .less, rest)
  | '~' :: rest => (some .tilde, rest)
  | '^' :: rest => (some .caret, rest)
  | cs => (none, cs)

/-- What stands where a minor or patch number may stand. -/
inductive Slot where
  | missing
  | wildcard
  | number (n : Nat)
  deriving DecidableEq

/-- The number in a slot. -/
def Slot.number? : Slot → Option Nat
  | .number n => some n
  | _ => none

/-- The slot in front: nothing, or a dot with a wildcard or a number. -/
def readSlot? (part : VersionPart) : List Char → Option (Slot × List Char)
  | '.' :: rest =>
    match wildcard? rest with
    | some rest => some (.wildcard, rest)
    | none =>
      match Version.readNumber part rest with
      | .ok (n, rest) => some (.number n, rest)
      | .error _ => none
  | cs => some (.missing, cs)

/-- The comparator in front, with the rest after it and the spaces that follow it. -/
def readComparator? (cs : List Char) : Option (Comparator × List Char) := do
  let (written, cs) := readOperator cs
  let (major, cs) ← (Version.readNumber .major (skipSpaces cs)).toOption
  let (minor, cs) ← readSlot? .minor cs
  let (patch, cs) ← readSlot? .patch cs
  if minor = .wildcard ∧ patch.number?.isSome then none
  let (preRelease, cs) ←
    if patch.number?.isSome then (Version.readPreRelease cs).toOption else some ([], cs)
  let (_, cs) ← if patch.number?.isSome then (Version.readBuild cs).toOption else some ([], cs)
  let byDefault : Operator :=
    if minor = .wildcard ∨ patch = .wildcard then .wildcard else .caret
  return (⟨written.getD byDefault, major, minor.number?, patch.number?, preRelease⟩,
    skipSpaces cs)

/-- Comparators separated by commas, up to the given number of them. -/
def readComparators? : Nat → List Char → Option (List Comparator)
  | 0, _ => none
  | limit + 1, cs => do
    let (first, rest) ← readComparator? cs
    match rest with
    | [] => return [first]
    | ',' :: rest => return first :: (← readComparators? limit (skipSpaces rest))
    | _ => none

/-- The requirement that the characters spell: a wildcard alone, or at most 32 comparators. -/
def parseChars? (cs : List Char) : Option Requirement :=
  let cs := skipSpaces cs
  match wildcard? cs with
  | some rest => if skipSpaces rest = [] then some ⟨[]⟩ else none
  | none => (readComparators? 32 cs).map (⟨·⟩)

/-- The requirement that a text spells. -/
def parse? (text : String) : Option Requirement :=
  parseChars? text.toList

end Requirement

/-! ## Ranges -/

/-- A requirement with a digit in front is an exact pin. -/
def Requirement.pinned : List Char → List Char
  | c :: cs => if c.isDigit then '=' :: c :: cs else c :: cs
  | [] => []

/-- Whether the version is in the range that a text describes. -/
def Version.inRange (v : Version) (range : String) : Bool :=
  match Text.trimChars range.toList with
  | [] => true
  | cs =>
    match Requirement.parseChars? (Requirement.pinned cs) with
    | some requirement => requirement.accepts v
    | none => false

end Bindle
