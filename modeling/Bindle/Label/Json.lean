import Bindle.Label.Basic
import Bindle.Json.Fields

/-!
# Labels as JSON

A label is written as one flat object: its name, each digest under the name of its algorithm, the
media type, and then what else is known. A draft is read from an object with the same keys, all of
them optional except that the name is never null.

The model of how a `Label` is written and decoded, sections 6 and 10.4 of `SPEC_FULL.md`.

Main definitions: `Label.toJson`, `LabelDraft.ofJson?`.
-/

namespace Bindle

/-- Annotations as an object. -/
def Annotations.toJson (a : Annotations) : Json :=
  .object (a.entries.map fun e => (e.1, .string e.2))

/-- Features as an object of objects. -/
def Features.toJson (f : Features) : Json :=
  .object (f.entries.map fun e => (e.1, Annotations.toJson e.2))

/-- The members of a label's object, in order. -/
def Label.toMembers (label : Label) : List (String × Json) :=
  [("name", .string label.name)] ++
    label.digests.toList.map (fun d => (d.1.toText, .string d.2)) ++
    [("mediaType", .string label.mediaType)] ++
    (label.size.toList.map fun n => ("size", .nat n.toNat)) ++
    (label.annotations.toList.map fun a => ("annotations", Annotations.toJson a)) ++
    (label.feature.toList.map fun f => ("feature", Features.toJson f))

/-- A label as an object. -/
def Label.toJson (label : Label) : Json :=
  .object label.toMembers

/-- The annotations that an object holds. -/
def Annotations.ofJson? : Json → Option Annotations :=
  Json.mapOf? Json.text?

/-- The features that an object holds. -/
def Features.ofJson? : Json → Option Features :=
  Json.mapOf? Annotations.ofJson?

/-- The fields of a label, in order. -/
def LabelDraft.keys : List Json.FieldKey :=
  [⟨"name", true⟩, ⟨"sha256", false⟩, ⟨"sha512", false⟩, ⟨"blake3", false⟩, ⟨"mediaType", false⟩,
    ⟨"size", false⟩, ⟨"annotations", false⟩, ⟨"feature", false⟩]

/-- The draft that a record holds. -/
def LabelDraft.read? (surplus : Json.Surplus) (j : Json) : Option LabelDraft := do
  let members ← j.record? surplus keys
  let name ← Json.defaulted members "name" "" Json.text?
  let sha256 ← Json.optional members "sha256" Json.text?
  let sha512 ← Json.optional members "sha512" Json.text?
  let blake3 ← Json.optional members "blake3" Json.text?
  let mediaType ← Json.optional members "mediaType" Json.text?
  let size ← Json.optional members "size" Json.word64?
  let annotations ← Json.optional members "annotations" Annotations.ofJson?
  let feature ← Json.optional members "feature" Features.ofJson?
  return { name, digests := ⟨sha256, sha512, blake3⟩, mediaType, size, annotations, feature }

/-- The draft that a JSON value holds. -/
def LabelDraft.ofJson? : Json → Option LabelDraft :=
  read? .refused

end Bindle
