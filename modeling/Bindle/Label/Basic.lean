import Bindle.Sorted.StringMap
import Bindle.Text.Blank

/-!
# Labels

A label identifies the content of a parcel: a name, a media type, and a digest by at least one of
three algorithms. A draft is a label as it was decoded, with nothing checked yet.

The model of the component `Label` in sections 2 and 3 of `SPEC_FULL.md`, with its errors in
section 7.

Main definitions: `HashAlgorithm`, `Digests`, `LabelDraft`, `Label`, `Label.ofDraft`.
-/

namespace Bindle

/-! ## Digests -/

/-- An algorithm that content is digested with. -/
inductive HashAlgorithm where
  | sha256
  | sha512
  | blake3
  deriving DecidableEq

namespace HashAlgorithm

/-- The algorithm as it is written. -/
def toText : HashAlgorithm → String
  | .sha256 => "sha256"
  | .sha512 => "sha512"
  | .blake3 => "blake3"

/-- The algorithm that a text names. -/
def ofText? (text : String) : Option HashAlgorithm :=
  if text = "sha256" then some .sha256
  else if text = "sha512" then some .sha512
  else if text = "blake3" then some .blake3
  else none

end HashAlgorithm

/-- The digests of one content, at most one by each algorithm. -/
structure Digests where
  sha256 : Option String
  sha512 : Option String
  blake3 : Option String
  deriving DecidableEq

namespace Digests

/-- No digest. -/
def empty : Digests := ⟨none, none, none⟩

/-- One digest. -/
def single (algorithm : HashAlgorithm) (digest : String) : Digests :=
  match algorithm with
  | .sha256 => { empty with sha256 := some digest }
  | .sha512 => { empty with sha512 := some digest }
  | .blake3 => { empty with blake3 := some digest }

/-- The digest by an algorithm. -/
def get? (d : Digests) : HashAlgorithm → Option String
  | .sha256 => d.sha256
  | .sha512 => d.sha512
  | .blake3 => d.blake3

/-- The digests in the order of the algorithms. -/
def toList (d : Digests) : List (HashAlgorithm × String) :=
  d.sha256.toList.map (.sha256, ·) ++ d.sha512.toList.map (.sha512, ·) ++
    d.blake3.toList.map (.blake3, ·)

end Digests

/-- Whether a text is a digest: hexadecimal digits, at least one. -/
def isHexText (text : String) : Bool :=
  text != "" && text.toList.all fun c =>
    ('0' ≤ c && c ≤ '9') || ('a' ≤ c && c ≤ 'f') || ('A' ≤ c && c ≤ 'F')

/-! ## Labels -/

/-- Annotations: texts under free keys. -/
abbrev Annotations := StringMap String

/-- Features: texts under keys, which are grouped in turn. -/
abbrev Features := StringMap (StringMap String)

/-- A label that nothing was checked of. -/
structure LabelDraft where
  name : String := ""
  digests : Digests := .empty
  mediaType : Option String := none
  size : Option UInt64 := none
  annotations : Option Annotations := none
  feature : Option Features := none
  deriving DecidableEq

/-- The content identity of a parcel. -/
structure Label where
  name : String
  digests : Digests
  mediaType : String
  size : Option UInt64
  annotations : Option Annotations
  feature : Option Features
  deriving DecidableEq

/-- What can be wrong with a label. -/
inductive LabelError where
  | emptyName
  | missingDigest
  | invalidDigest (algorithm : HashAlgorithm) (digest : String)
  deriving DecidableEq

/-- The message of an error. -/
def LabelError.message : LabelError → String
  | .emptyName => "Label name must not be empty"
  | .missingDigest => "Label has no content hash"
  | .invalidDigest algorithm digest =>
    s!"Invalid {algorithm.toText} digest '{digest}': expected hexadecimal characters"

namespace Label

/-- The media type of content that nothing is said about. -/
def defaultMediaType : String := "application/octet-stream"

/-- The label of a draft. The name is looked at first, then the digests in the order of their
algorithms, then whether there is any. -/
def ofDraft (draft : LabelDraft) : Except LabelError Label :=
  if Text.isBlank draft.name then .error .emptyName
  else match draft.digests.toList.find? fun d => !isHexText d.2 with
  | some (algorithm, digest) => .error (.invalidDigest algorithm digest)
  | none =>
    if draft.digests.toList.isEmpty then .error .missingDigest
    else .ok
      { name := draft.name
        digests := draft.digests
        mediaType := draft.mediaType.getD defaultMediaType
        size := draft.size
        annotations := draft.annotations
        feature := draft.feature }

/-- The label with one digest and nothing else said. -/
def single (name : String) (algorithm : HashAlgorithm) (digest : String) :
    Except LabelError Label :=
  ofDraft { name, digests := .single algorithm digest }

/-- The first digest in the order of the algorithms. -/
def primary (label : Label) : HashAlgorithm × String :=
  label.digests.toList.head?.getD (.sha256, "")

end Label

end Bindle
