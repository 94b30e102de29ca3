import Bindle.Draft.Json
import Bindle.Proofs.Json.Decoding

/-!
# Which documents are drafts

The grammar of invoices is a table of fields for each record. A document without an array in the
place of a record is decoded exactly when it follows the tables: each record is an object with
fields of its table only, each with a value of the kind that the table gives, or null where the
table allows it. Nothing is converted and no key is passed over, so a misspelt key is refused at
every level. What is decoded is what the document shows: an optional field that is missing or null
is nothing, a field with a default that is missing is its default, and every other value is taken
as it stands.

* `LabelDraft.fields`, `BindleDraft.fields`, `GroupDraft.fields`, `ConditionsDraft.fields`,
  `ParcelDraft.fields`, `InvoiceDraft.fields`: the tables.
* `LabelDraft.IsShownIn` and so on: what the members of an object show of a draft.
* `decodes_label` and so on: each reader takes its records, and `decodes_invoice` all of them.
* `InvoiceDraft.ofJson?_spec`: which documents are drafts, and of what.
-/

namespace Bindle

open Json

/-! ## The tables -/

/-- Texts under free keys. -/
def Annotations.kind : Kind :=
  Kind.text.mapOf

/-- Texts under keys, which are grouped in turn. -/
def Features.kind : Kind :=
  Annotations.kind.mapOf

/-- The fields of a label. -/
def LabelDraft.fields : List Field :=
  [.defaulted "name" .text, .optional "sha256" .text, .optional "sha512" .text,
    .optional "blake3" .text, .optional "mediaType" .text, .optional "size" .word64,
    .optional "annotations" Annotations.kind, .optional "feature" Features.kind]

/-- The fields of a bindle. -/
def BindleDraft.fields : List Field :=
  [.defaulted "name" .text, .defaulted "version" .text, .optional "description" .text,
    .optional "authors" Kind.text.listOf]

/-- The fields of a group. -/
def GroupDraft.fields : List Field :=
  [.defaulted "name" .text, .optional "required" .flag, .optional "satisfiedBy" .text]

/-- The fields of conditions. -/
def ConditionsDraft.fields : List Field :=
  [.optional "memberOf" Kind.text.listOf, .optional "requires" Kind.text.listOf]

/-- The fields of a parcel. -/
def ParcelDraft.fields : List Field :=
  [.defaulted "label" (.record LabelDraft.fields),
    .optional "conditions" (.record ConditionsDraft.fields)]

/-- The fields of an invoice. -/
def InvoiceDraft.fields : List Field :=
  [.defaulted "bindleVersion" .text, .optional "yanked" .flag,
    .defaulted "bindle" (.record BindleDraft.fields), .optional "annotations" Annotations.kind,
    .optional "group" (Kind.record GroupDraft.fields).listOf,
    .optional "parcel" (Kind.record ParcelDraft.fields).listOf,
    .optional "signature" .anything, .optional "yankedSignature" .anything]

/-! ## What is shown -/

/-- The value shows annotations. -/
def ShowsAnnotations : Json → Annotations → Prop :=
  ShowsMapOf ShowsText

/-- The value shows features. -/
def ShowsFeatures : Json → Features → Prop :=
  ShowsMapOf ShowsAnnotations

/-- The members show the draft of a label. -/
structure LabelDraft.IsShownIn (members : List (String × Json)) (d : LabelDraft) : Prop where
  name : ShowsDefaulted ShowsText members "name" "" d.name
  sha256 : ShowsOptional ShowsText members "sha256" d.digests.sha256
  sha512 : ShowsOptional ShowsText members "sha512" d.digests.sha512
  blake3 : ShowsOptional ShowsText members "blake3" d.digests.blake3
  mediaType : ShowsOptional ShowsText members "mediaType" d.mediaType
  size : ShowsOptional ShowsWord64 members "size" d.size
  annotations : ShowsOptional ShowsAnnotations members "annotations" d.annotations
  feature : ShowsOptional ShowsFeatures members "feature" d.feature

/-- The members show the draft of a bindle. -/
structure BindleDraft.IsShownIn (members : List (String × Json)) (d : BindleDraft) : Prop where
  name : ShowsDefaulted ShowsText members "name" "" d.name
  version : ShowsDefaulted ShowsText members "version" "" d.version
  description : ShowsOptional ShowsText members "description" d.description
  authors : ShowsOptional (ShowsListOf ShowsText) members "authors" d.authors

/-- The members show the draft of a group. -/
structure GroupDraft.IsShownIn (members : List (String × Json)) (d : GroupDraft) : Prop where
  name : ShowsDefaulted ShowsText members "name" "" d.name
  required : ShowsOptional ShowsFlag members "required" d.required
  satisfiedBy : ShowsOptional ShowsText members "satisfiedBy" d.satisfiedBy

/-- The members show the draft of conditions. -/
structure ConditionsDraft.IsShownIn (members : List (String × Json)) (d : ConditionsDraft) :
    Prop where
  memberOf : ShowsOptional (ShowsListOf ShowsText) members "memberOf" d.memberOf
  requires : ShowsOptional (ShowsListOf ShowsText) members "requires" d.requires

/-- The members show the draft of a parcel. -/
structure ParcelDraft.IsShownIn (members : List (String × Json)) (d : ParcelDraft) : Prop where
  label : ShowsDefaulted (ShowsRecord LabelDraft.IsShownIn) members "label" {} d.label
  conditions :
    ShowsOptional (ShowsRecord ConditionsDraft.IsShownIn) members "conditions" d.conditions

/-- The members show the draft of an invoice; signatures are no part of it. -/
structure InvoiceDraft.IsShownIn (members : List (String × Json)) (d : InvoiceDraft) : Prop where
  bindleVersion : ShowsDefaulted ShowsText members "bindleVersion" "" d.bindleVersion
  yanked : ShowsOptional ShowsFlag members "yanked" d.yanked
  bindle : ShowsDefaulted (ShowsRecord BindleDraft.IsShownIn) members "bindle" {} d.bindle
  annotations : ShowsOptional ShowsAnnotations members "annotations" d.annotations
  groups :
    ShowsOptional (ShowsListOf (ShowsRecord GroupDraft.IsShownIn)) members "group" d.groups
  parcels :
    ShowsOptional (ShowsListOf (ShowsRecord ParcelDraft.IsShownIn)) members "parcel" d.parcels

/-! ## The readers -/

theorem decodes_annotations : Decodes Annotations.ofJson? Annotations.kind ShowsAnnotations :=
  decodes_mapOf? decodes_text?

theorem decodes_features : Decodes Features.ofJson? Features.kind ShowsFeatures :=
  decodes_mapOf? decodes_annotations

theorem decodes_texts : Decodes (listOf? text?) Kind.text.listOf (ShowsListOf ShowsText) :=
  decodes_listOf? decodes_text?

section

variable (surplus : Surplus)

-- The fields of a record are read in the order of its table, each with what it shows.

theorem decodes_label : Decodes (LabelDraft.read? surplus) (.record LabelDraft.fields)
    (ShowsRecord LabelDraft.IsShownIn) := by
  refine decodes_record rfl (by decide) fun members h => ?_
  refine h.defaulted decodes_text? fun _ name => h.optional decodes_text? fun _ sha256 =>
    h.optional decodes_text? fun _ sha512 => h.optional decodes_text? fun _ blake3 =>
    h.optional decodes_text? fun _ mediaType => h.optional decodes_word64? fun _ size =>
    h.optional decodes_annotations fun _ annotations => h.optional decodes_features fun _ feature =>
    .pure ?_
  exact ⟨name, sha256, sha512, blake3, mediaType, size, annotations, feature⟩

theorem decodes_bindle : Decodes (BindleDraft.read? surplus) (.record BindleDraft.fields)
    (ShowsRecord BindleDraft.IsShownIn) := by
  refine decodes_record rfl (by decide) fun members h => ?_
  refine h.defaulted decodes_text? fun _ name => h.defaulted decodes_text? fun _ version =>
    h.optional decodes_text? fun _ description => h.optional decodes_texts fun _ authors => .pure ?_
  exact ⟨name, version, description, authors⟩

theorem decodes_group : Decodes (GroupDraft.read? surplus) (.record GroupDraft.fields)
    (ShowsRecord GroupDraft.IsShownIn) := by
  refine decodes_record rfl (by decide) fun members h => ?_
  refine h.defaulted decodes_text? fun _ name => h.optional decodes_flag? fun _ required =>
    h.optional decodes_text? fun _ satisfiedBy => .pure ?_
  exact ⟨name, required, satisfiedBy⟩

theorem decodes_conditions : Decodes (ConditionsDraft.read? surplus)
    (.record ConditionsDraft.fields) (ShowsRecord ConditionsDraft.IsShownIn) := by
  refine decodes_record rfl (by decide) fun members h => ?_
  refine h.optional decodes_texts fun _ memberOf => h.optional decodes_texts fun _ requires =>
    .pure ?_
  exact ⟨memberOf, requires⟩

theorem decodes_parcel : Decodes (ParcelDraft.read? surplus) (.record ParcelDraft.fields)
    (ShowsRecord ParcelDraft.IsShownIn) := by
  refine decodes_record rfl (by decide) fun members h => ?_
  refine h.defaulted (decodes_label surplus) fun _ label =>
    h.optional (decodes_conditions surplus) fun _ conditions => .pure ?_
  exact ⟨label, conditions⟩

theorem decodes_invoice : Decodes (InvoiceDraft.read? surplus) (.record InvoiceDraft.fields)
    (ShowsRecord InvoiceDraft.IsShownIn) := by
  have hgroups := decodes_listOf? (decodes_group surplus)
  have hparcels := decodes_listOf? (decodes_parcel surplus)
  refine decodes_record rfl (by decide) fun members h => ?_
  refine h.defaulted decodes_text? fun _ bindleVersion => h.optional decodes_flag? fun _ yanked =>
    h.defaulted (decodes_bindle surplus) fun _ bindle =>
    h.optional decodes_annotations fun _ annotations => h.optional hgroups fun _ groups =>
    h.optional hparcels fun _ parcels => .unread (.unread (.pure ?_))
  exact ⟨bindleVersion, yanked, bindle, annotations, groups, parcels⟩

end

/-- **The documents that are drafts of invoices.** A document in which no object has a key twice,
and no array stands where a record belongs, is decoded exactly when it is a record by the table of
invoices, all the way down; and then the draft is what the document shows. -/
theorem InvoiceDraft.ofJson?_spec {j : Json} (hj : j.HasDistinctKeys)
    (hnames : NamesFields InvoiceDraft.fields j) :
    ((∃ draft, InvoiceDraft.ofJson? j = some draft) ↔ IsRecord InvoiceDraft.fields j) ∧
      ∀ draft, InvoiceDraft.ofJson? j = some draft →
        ShowsRecord InvoiceDraft.IsShownIn j draft := by
  have hread := decodes_invoice .refused j hj hnames
  exact ⟨hread.exists_iff, hread.result⟩

/-! ## A worked document -/

namespace Worked

/-- A document with one parcel, whose place is given under `key`. -/
def sheet (key : String) : Json :=
  .object [("bindleVersion", .string "1.0.0"), ("yanked", .null),
    ("group", .array [.object [("name", .string "server"), ("required", .bool true)]]),
    ("parcel", .array [.object [
      ("label", .object [("name", .string "daemon"), ("size", .int 64)]),
      ("conditions", .object [(key, .array [.string "server"])])]]),
    ("signature", .decimal "0.5")]

/-- What the document says when the key is spelt as it should be. -/
def sheetDraft : InvoiceDraft where
  bindleVersion := "1.0.0"
  groups := some [{ name := "server", required := some true }]
  parcels := some [
    { label := { name := "daemon", size := some 64 }
      conditions := some { memberOf := some ["server"] } }]

theorem hasDistinctKeys_sheet (key : String) : (sheet key).HasDistinctKeys := by
  simp [sheet]

theorem namesFields_sheet (key : String) : NamesFields InvoiceDraft.fields (sheet key) := by
  simp [sheet, NamesFields, InvoiceDraft.fields, GroupDraft.fields, ParcelDraft.fields,
    LabelDraft.fields, ConditionsDraft.fields, Kind.record, Kind.listOf, Kind.plain]

/-- The document is taken with the key spelt as it should be, and refused with another. -/
theorem isRecord_sheet :
    (∀ key, (sheet key).HasDistinctKeys ∧ NamesFields InvoiceDraft.fields (sheet key)) ∧
      IsRecord InvoiceDraft.fields (sheet "memberOf") ∧
      ShowsRecord InvoiceDraft.IsShownIn (sheet "memberOf") sheetDraft ∧
      ¬IsRecord InvoiceDraft.fields (sheet "memberof") := by
  have htaken : InvoiceDraft.ofJson? (sheet "memberOf") = some sheetDraft := by decide +kernel
  have hrefused : InvoiceDraft.ofJson? (sheet "memberof") = none := by decide +kernel
  have hspelt := InvoiceDraft.ofJson?_spec (hasDistinctKeys_sheet "memberOf") (namesFields_sheet _)
  have hmisspelt :=
    InvoiceDraft.ofJson?_spec (hasDistinctKeys_sheet "memberof") (namesFields_sheet _)
  refine ⟨fun key => ⟨hasDistinctKeys_sheet key, namesFields_sheet key⟩, hspelt.1.1 ⟨_, htaken⟩,
    hspelt.2 _ htaken, fun hrecord => ?_⟩
  obtain ⟨draft, hdraft⟩ := hmisspelt.1.2 hrecord
  rw [hrefused] at hdraft
  cases hdraft

end Worked

end Bindle
