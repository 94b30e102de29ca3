import Bindle.Draft.Basic
import Bindle.Label.Json

/-!
# Drafts from JSON

Each record of a draft is an object with known keys only, so that a misspelt key is an error and
not a field left out. Fields with a default may be missing but not null; all others may be both.
A record may also be an array of the values of its fields in order. The two signature fields may
hold anything.

The model of how a `RawInvoice` is decoded, sections 1 and 6 of `SPEC_FULL.md`.

Main definitions: `InvoiceDraft.read?`, `InvoiceDraft.ofJson?`.
-/

namespace Bindle

section

variable (surplus : Json.Surplus)

/-- The fields of a bindle, in order. -/
def BindleDraft.keys : List Json.FieldKey :=
  [⟨"name", true⟩, ⟨"version", true⟩, ⟨"description", false⟩, ⟨"authors", false⟩]

/-- The bindle that a record describes. -/
def BindleDraft.read? (j : Json) : Option BindleDraft := do
  let members ← j.record? surplus keys
  let name ← Json.defaulted members "name" "" Json.text?
  let version ← Json.defaulted members "version" "" Json.text?
  let description ← Json.optional members "description" Json.text?
  let authors ← Json.optional members "authors" (Json.listOf? Json.text?)
  return { name, version, description, authors }

/-- The fields of a group, in order. -/
def GroupDraft.keys : List Json.FieldKey :=
  [⟨"name", true⟩, ⟨"required", false⟩, ⟨"satisfiedBy", false⟩]

/-- The group that a record describes. -/
def GroupDraft.read? (j : Json) : Option GroupDraft := do
  let members ← j.record? surplus keys
  let name ← Json.defaulted members "name" "" Json.text?
  let required ← Json.optional members "required" Json.flag?
  let satisfiedBy ← Json.optional members "satisfiedBy" Json.text?
  return { name, required, satisfiedBy }

/-- The fields of conditions, in order. -/
def ConditionsDraft.keys : List Json.FieldKey :=
  [⟨"memberOf", false⟩, ⟨"requires", false⟩]

/-- The conditions that a record describes. -/
def ConditionsDraft.read? (j : Json) : Option ConditionsDraft := do
  let members ← j.record? surplus keys
  let memberOf ← Json.optional members "memberOf" (Json.listOf? Json.text?)
  let requires ← Json.optional members "requires" (Json.listOf? Json.text?)
  return { memberOf, requires }

/-- The fields of a parcel, in order. -/
def ParcelDraft.keys : List Json.FieldKey :=
  [⟨"label", true⟩, ⟨"conditions", false⟩]

/-- The parcel that a record describes. -/
def ParcelDraft.read? (j : Json) : Option ParcelDraft := do
  let members ← j.record? surplus keys
  let label ← Json.defaulted members "label" {} (LabelDraft.read? surplus)
  let conditions ← Json.optional members "conditions" (ConditionsDraft.read? surplus)
  return { label, conditions }

/-- The fields of an invoice, in order. -/
def InvoiceDraft.keys : List Json.FieldKey :=
  [⟨"bindleVersion", true⟩, ⟨"yanked", false⟩, ⟨"bindle", true⟩, ⟨"annotations", false⟩,
    ⟨"group", false⟩, ⟨"parcel", false⟩, ⟨"signature", false⟩, ⟨"yankedSignature", false⟩]

/-- The invoice that a record describes. -/
def InvoiceDraft.read? (j : Json) : Option InvoiceDraft := do
  let members ← j.record? surplus keys
  let bindleVersion ← Json.defaulted members "bindleVersion" "" Json.text?
  let yanked ← Json.optional members "yanked" Json.flag?
  let bindle ← Json.defaulted members "bindle" {} (BindleDraft.read? surplus)
  let annotations ← Json.optional members "annotations" Annotations.ofJson?
  let groups ← Json.optional members "group" (Json.listOf? (GroupDraft.read? surplus))
  let parcels ← Json.optional members "parcel" (Json.listOf? (ParcelDraft.read? surplus))
  return { bindleVersion, yanked, bindle, annotations, groups, parcels }

end

/-- The draft that a JSON value holds. -/
def InvoiceDraft.ofJson? : Json → Option InvoiceDraft :=
  read? .refused

end Bindle
