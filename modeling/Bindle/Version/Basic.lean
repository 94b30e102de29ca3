/-!
# Versions

A semantic version is three numbers, the identifiers of a pre-release and those of the build. A
pre-release identifier made of digits only is a number; every other one is a word. Build
identifiers are never compared, so they are kept as they are written.

Precedence ignores the build. Of two versions with the same three numbers the one without a
pre-release is the greater; pre-releases are compared identifier by identifier, numbers below
words, and a longer list after an equal beginning is the greater.

The model of the versions in section 3 of `SPEC_FULL.md`, which are semantic versions.

Main definitions: `Version`, `PreRelease.compare`, `Version.toText`.
-/

namespace Bindle

/-- One dot-separated part of a pre-release. -/
inductive PreIdentifier where
  | number (value : Nat)
  | word (text : String)
  deriving DecidableEq

/-- The identifiers of a pre-release; none for a release. -/
abbrev PreRelease := List PreIdentifier

/-- A semantic version. -/
structure Version where
  major : Nat
  minor : Nat
  patch : Nat
  preRelease : PreRelease
  build : List String
  deriving DecidableEq

/-! ## Precedence -/

/-- Numbers come before words; numbers compare by value, words by their characters. -/
def PreIdentifier.compare : PreIdentifier → PreIdentifier → Ordering
  | .number a, .number b => Ord.compare a b
  | .number _, .word _ => .lt
  | .word _, .number _ => .gt
  | .word a, .word b => Ord.compare a b

/-- Identifier by identifier; a list that ends first is the lesser. -/
def PreRelease.compareParts : PreRelease → PreRelease → Ordering
  | [], [] => .eq
  | [], _ :: _ => .lt
  | _ :: _, [] => .gt
  | a :: as, b :: bs => (PreIdentifier.compare a b).then (compareParts as bs)

/-- The order of pre-releases, in which a release comes after every pre-release of it. -/
def PreRelease.compare : PreRelease → PreRelease → Ordering
  | [], [] => .eq
  | [], _ :: _ => .gt
  | _ :: _, [] => .lt
  | a, b => compareParts a b

/-! ## Text -/

/-- An identifier as it is written. -/
def PreIdentifier.toText : PreIdentifier → String
  | .number n => toString n
  | .word s => s

namespace Version

/-- The version with the three numbers alone. -/
def ofNumbers (major minor patch : Nat) : Version :=
  ⟨major, minor, patch, [], []⟩

/-- The text of a version, for instance `1.2.3-rc.1+b.7`. -/
def toText (v : Version) : String :=
  s!"{v.major}.{v.minor}.{v.patch}" ++
    (if v.preRelease = [] then ""
      else "-" ++ ".".intercalate (v.preRelease.map PreIdentifier.toText)) ++
    (if v.build = [] then "" else "+" ++ ".".intercalate v.build)

end Version

end Bindle
