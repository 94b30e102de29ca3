import Bindle.Proofs.Invoice.Schema
import Bindle.Proofs.Json.Decoding
import Bindle.Proofs.Json.RoundTrip
import Bindle.Proofs.Resolution.Consistency

/-!
# Reading labels back

A label is written flat, with its digests beside its other fields and without those that it does not
have. Under each key of a draft the written object then has what the label has there, or nothing, so
reading it gives the draft that spells the label out. That draft is accepted like the one the label
was made of: the only thing that was added is the media type, and nothing is asked of it.

* `optional_eq_some`, `mapOf?_entries`: a field and a map that were written are read back.
* `present`, `lookup_present`: members that are written only if they are there.
* `Label.table`, `Label.lookup_toMembers`: what is written of a label under each key;
  `Label.optional_toMembers` says that each of its fields is read back.
* `Label.ofJson?_toJson`: the draft that is read.
* `Label.IsValid`, `Label.IsReadFrom`: where a label comes from.
* `Label.isIntegral_toJson`, `Manifest.isIntegral_toJson`: what is written has no fractions in it.
* `Label.read_back`: labels, and those of manifests, are read back from what is printed.
-/

namespace Bindle

open Json

/-! ## Fields that were written -/

namespace Json

variable {α : Type} {read : Json → Option α} (write : α → Json)

/-- What is written under a key, or nothing, is read back. -/
theorem optional_eq_some {members : List (String × Json)} {key : String} {a? : Option α}
    (h : members.lookup key = a?.map write) (hread : ∀ a, read (write a) = some a)
    (hnull : read .null = none) : optional members key read = some a? := by
  cases a? with
  | none =>
    rw [optional, h]
    rfl
  | some a =>
    have hvalue : write a ≠ .null := by
      intro heq
      simpa [heq, hnull] using hread a
    rw [optional_of_ne_null read h hvalue, hread a]
    rfl

/-- The entries of a map are read back as the map. -/
theorem mapOf?_entries (hread : ∀ a, read (write a) = some a) (map : StringMap α) :
    mapOf? read (.object (map.entries.map fun e => (e.1, write e.2))) = some map := by
  have hentries : ∀ es : List (String × α),
      (es.map fun e => (e.1, write e.2)).mapM (fun m => (read m.2).map (m.1, ·)) = some es := by
    intro es
    induction es with
    | nil => rfl
    | cons e es ih => simp [List.mapM_cons, hread, ih]
  simp [mapOf?, hentries, StringMap.ofList_entries]

theorem word64?_nat (n : UInt64) : word64? (.nat n.toNat) = some n := by
  have hlt : n.toNat < UInt64.size := n.toNat_lt
  simp [nat, word64?, hlt]

end Json

theorem Annotations.ofJson?_toJson (a : Annotations) :
    Annotations.ofJson? (Annotations.toJson a) = some a :=
  mapOf?_entries .string (fun _ => rfl) a

theorem Features.ofJson?_toJson (f : Features) : Features.ofJson? (Features.toJson f) = some f :=
  mapOf?_entries Annotations.toJson Annotations.ofJson?_toJson f

/-! ## Members that are written if they are there -/

namespace Json

/-- The members of an object, from what it has under each key, if anything. -/
def present (table : List (String × Option Json)) : List (String × Json) :=
  table.flatMap fun f => f.2.toList.map (f.1, ·)

variable {table : List (String × Option Json)}

theorem mem_keys_of_mem_present {m : String × Json} (h : m ∈ present table) :
    m.1 ∈ table.map Prod.fst := by
  obtain ⟨f, hf, hm⟩ := List.mem_flatMap.1 h
  obtain ⟨value, -, rfl⟩ := List.mem_map.1 hm
  exact List.mem_map_of_mem hf

/-- When the keys are different, what is found under a key is what the table has there. -/
theorem lookup_present (h : (table.map Prod.fst).Nodup) (key : String) :
    (present table).lookup key = (table.lookup key).join := by
  induction table with
  | nil => rfl
  | cons f table ih =>
    obtain ⟨other, value?⟩ := f
    obtain ⟨hother, htable⟩ := List.nodup_cons.1 h
    have hcons : present ((other, value?) :: table) =
        value?.toList.map (other, ·) ++ present table := rfl
    rw [hcons, List.lookup_append, ih htable]
    by_cases hkey : key = other
    · subst hkey
      have hnone := StringMap.lookup_eq_none_iff_not_mem_keys.2 hother
      cases value? <;> simp [hnone]
    · have hne : (key == other) = false := by simpa using hkey
      cases value? <;> simp [List.lookup_cons, hne]

end Json

/-! ## Labels -/

namespace Label

variable (label : Label)

/-- What a label has under each key of a draft. -/
def table : List (String × Option Json) :=
  [("name", some (.string label.name)), ("sha256", label.digests.sha256.map .string),
    ("sha512", label.digests.sha512.map .string), ("blake3", label.digests.blake3.map .string),
    ("mediaType", some (.string label.mediaType)), ("size", label.size.map fun n => .nat n.toNat),
    ("annotations", label.annotations.map Annotations.toJson),
    ("feature", label.feature.map Features.toJson)]

theorem toMembers_eq_present : label.toMembers = present label.table := by
  simp [toMembers, table, present, Digests.toList, HashAlgorithm.toText, Option.toList_map,
    Function.comp_def]

theorem nodup_keys_table : (label.table.map Prod.fst).Nodup :=
  show (LabelDraft.keys.map (·.key)).Nodup by decide

/-- What is found under a key is what the table has there. -/
theorem lookup_toMembers {key : String} {value? : Option Json} (h : (key, value?) ∈ label.table) :
    label.toMembers.lookup key = value? := by
  rw [toMembers_eq_present, lookup_present label.nodup_keys_table,
    (StringMap.lookup_eq_some_iff_mem label.nodup_keys_table).2 h, Option.join_some]

/-- A field of the table is read back as what was written, or as nothing. -/
theorem optional_toMembers {α : Type} {read : Json → Option α} (write : α → Json) {key : String}
    {a? : Option α} (h : (key, a?.map write) ∈ label.table)
    (hread : ∀ a, read (write a) = some a) (hnull : read .null = none) :
    optional label.toMembers key read = some a? :=
  optional_eq_some write (label.lookup_toMembers h) hread hnull

theorem record?_toJson {surplus : Surplus} :
    label.toJson.record? surplus LabelDraft.keys = some label.toMembers := by
  have hkeys : ∀ m ∈ label.toMembers, m.1 ∈ LabelDraft.keys.map (·.key) := by
    rw [toMembers_eq_present]
    exact fun m hm => mem_keys_of_mem_present hm
  simpa [toJson, record?] using hkeys

theorem optional_text {key : String} {s? : Option String}
    (h : (key, s?.map .string) ∈ label.table) : optional label.toMembers key text? = some s? :=
  label.optional_toMembers .string h (fun _ => rfl) rfl

/-- A label that is written is read as the draft that spells it out. -/
theorem ofJson?_toJson : LabelDraft.ofJson? label.toJson = some label.toDraft := by
  have hname : label.toMembers.lookup "name" = some (.string label.name) :=
    label.lookup_toMembers (by simp [table])
  have hsha256 : optional label.toMembers "sha256" text? = some label.digests.sha256 :=
    label.optional_text (by simp [table])
  have hsha512 : optional label.toMembers "sha512" text? = some label.digests.sha512 :=
    label.optional_text (by simp [table])
  have hblake3 : optional label.toMembers "blake3" text? = some label.digests.blake3 :=
    label.optional_text (by simp [table])
  have hmediaType : optional label.toMembers "mediaType" text? = some (some label.mediaType) :=
    label.optional_text (by simp [table])
  have hsize : optional label.toMembers "size" word64? = some label.size :=
    label.optional_toMembers (fun n => .nat n.toNat) (by simp [table]) word64?_nat rfl
  have hannotations : optional label.toMembers "annotations" Annotations.ofJson? =
      some label.annotations :=
    label.optional_toMembers Annotations.toJson (by simp [table]) Annotations.ofJson?_toJson rfl
  have hfeature : optional label.toMembers "feature" Features.ofJson? = some label.feature :=
    label.optional_toMembers Features.toJson (by simp [table]) Features.ofJson?_toJson rfl
  simp [LabelDraft.ofJson?, LabelDraft.read?, record?_toJson, defaulted, hname, text?, hsha256,
    hsha512, hblake3, hmediaType, hsize, hannotations, hfeature, toDraft]

/-- The label was made of a draft. -/
def IsValid : Prop :=
  ∃ draft, Label.ofDraft draft = .ok label

/-- The value is decoded as a draft, and the label is made of it. -/
def IsReadFrom (j : Json) : Prop :=
  ∃ draft, LabelDraft.ofJson? j = some draft ∧ Label.ofDraft draft = .ok label

variable {label}

/-- The draft that spells a label out is accepted as the one that the label was made of. -/
theorem IsValid.ofDraft_toDraft (h : label.IsValid) : Label.ofDraft label.toDraft = .ok label := by
  obtain ⟨draft, hdraft⟩ := h
  obtain ⟨hmeets, hdescribes⟩ := ofDraft_eq_ok_iff.1 hdraft
  refine ofDraft_eq_ok_iff.2 ⟨⟨?_, ?_, ?_⟩, ⟨rfl, rfl, rfl, rfl, rfl, rfl⟩⟩
  · rw [toDraft, hdescribes.name]
    exact hmeets.name
  · rw [toDraft, hdescribes.digests]
    exact hmeets.digested
  · rw [toDraft, hdescribes.digests]
    exact hmeets.digests

theorem IsValid.isReadFrom_toJson (h : label.IsValid) : label.IsReadFrom label.toJson :=
  ⟨label.toDraft, label.ofJson?_toJson, h.ofDraft_toDraft⟩

end Label

/-! ## What is printed -/

theorem Annotations.isIntegral_toJson (a : Annotations) : (Annotations.toJson a).IsIntegral := by
  rw [Annotations.toJson, isIntegral_object, List.forall_mem_map]
  exact fun e _ => .string e.2

theorem Features.isIntegral_toJson (f : Features) : (Features.toJson f).IsIntegral := by
  rw [Features.toJson, isIntegral_object, List.forall_mem_map]
  exact fun e _ => Annotations.isIntegral_toJson e.2

theorem Label.isIntegral_toJson (label : Label) : label.toJson.IsIntegral := by
  have htable : ∀ f ∈ label.table, ∀ value ∈ f.2, value.IsIntegral := by
    simp [table, Annotations.isIntegral_toJson, Features.isIntegral_toJson]
  rw [toJson, toMembers_eq_present, isIntegral_object]
  intro m hm
  obtain ⟨f, hf, hm⟩ := List.mem_flatMap.1 hm
  obtain ⟨value, hvalue, rfl⟩ := List.mem_map.1 hm
  exact htable f hf value (Option.mem_toList.1 hvalue)

theorem RequiredReason.isIntegral_toJson (r : RequiredReason) : r.toJson.IsIntegral := by
  cases r <;> simp [toJson]

theorem GroupReport.isIntegral_toJson (r : GroupReport) : r.toJson.IsIntegral := by
  simp [toJson, RequiredReason.isIntegral_toJson]

theorem Manifest.isIntegral_toJson (m : Manifest) : m.toJson.IsIntegral := by
  simp [toJson, Label.isIntegral_toJson, GroupReport.isIntegral_toJson]

/-- Every parcel of a valid invoice has a valid label. -/
theorem Invoice.IsValid.label {i : Invoice} (hi : i.IsValid) {p : Parcel} (hp : p ∈ i.parcels) :
    p.label.IsValid := by
  obtain ⟨draft, hdraft⟩ := hi
  obtain ⟨hcomplete, hdescribes, -⟩ := ofDraft_eq_ok_iff.1 hdraft
  obtain ⟨parcel, hparcel, hp⟩ := exists_of_forall₂ hdescribes.parcels.flip hp
  exact ⟨parcel.label,
    Label.ofDraft_eq_ok_iff.2 ⟨hcomplete.labels parcel hparcel, hp.label⟩⟩

/-- The labels that a manifest lists are labels of the invoice. -/
theorem Invoice.IsValid.label_of_resolve {i : Invoice} (hi : i.IsValid) {policy : Policy}
    {chooser : Chooser} {allowYanked : Bool} {m : Manifest}
    (hm : (i.resolve policy chooser allowYanked).result = .ok m) {label : Label}
    (hlabel : label ∈ m.parcels) : label.IsValid := by
  obtain ⟨-, -, hm⟩ := Invoice.resolve_eq_ok_iff.1 hm
  obtain ⟨run, -, -, rfl⟩ := Graph.resolve_eq_ok_iff.1 hm
  obtain ⟨p, hp, rfl⟩ := List.mem_map.1 (Run.labels_sublist.subset hlabel)
  exact hi.label hp

/-- **Labels are read back.** What is printed of a label is read as the label again, with all of its
digests and fields and with none that it did not have. So is every label of the array that is
printed of a manifest, one by one and in order. -/
theorem Label.read_back :
    (∀ draft label, Label.ofDraft draft = .ok label →
      Json.parse? label.toJson.toText = some label.toJson ∧ label.IsReadFrom label.toJson) ∧
    ∀ (i : Invoice) (policy : Policy) (chooser : Chooser) (allowYanked : Bool) (m : Manifest),
      i.IsValid → (i.resolve policy chooser allowYanked).result = .ok m →
        ∃ members labels, Json.parse? m.toJson.toText = some (.object members) ∧
          members.lookup "parcels" = some (.array labels) ∧
          List.Forall₂ (fun j label => label.IsReadFrom j) labels m.parcels := by
  constructor
  · intro draft label hlabel
    have hvalid : label.IsValid := ⟨draft, hlabel⟩
    exact ⟨label.isIntegral_toJson.parse?_toText, hvalid.isReadFrom_toJson⟩
  · intro i policy chooser allowYanked m hi hm
    refine ⟨_, m.parcels.map (·.toJson), m.isIntegral_toJson.parse?_toText, rfl, ?_⟩
    rw [List.forall₂_map_left_iff, List.forall₂_same]
    exact fun label hlabel => (hi.label_of_resolve hm hlabel).isReadFrom_toJson

namespace Worked

/-- A draft with almost all that a label may have, and the largest size. -/
def fullDraft : LabelDraft where
  name := "daemon \"2\""
  digests := ⟨none, some "e1706a", some "00"⟩
  size := some 18446744073709551615
  annotations := some (.ofList [("license", "MIT")])
  feature := some (.ofList [("target", .ofList [("arch", "x86"), ("os", "")])])

/-- The draft's label is read back, and so are the labels of the worked manifest. -/
theorem read_back_manifest :
    (∃ label, Label.ofDraft fullDraft = .ok label ∧ label.size = some 18446744073709551615 ∧
      Json.parse? label.toJson.toText = some label.toJson ∧ label.IsReadFrom label.toJson) ∧
    invoice.IsValid ∧ (invoice.resolve policy .takeFirst false).result = .ok manifest ∧
      ∃ members labels, Json.parse? manifest.toJson.toText = some (.object members) ∧
        members.lookup "parcels" = some (.array labels) ∧
        List.Forall₂ (fun j label => label.IsReadFrom j) labels manifest.parcels := by
  have hlabel : ∃ label, Label.ofDraft fullDraft = .ok label ∧
      label.size = some 18446744073709551615 := ⟨_, rfl, rfl⟩
  have hm : (invoice.resolve policy .takeFirst false).result = .ok manifest := by decide +kernel
  obtain ⟨label, hlabel, hsize⟩ := hlabel
  exact ⟨⟨label, hlabel, hsize, Label.read_back.1 fullDraft label hlabel⟩, isValid, hm,
    Label.read_back.2 invoice policy .takeFirst false manifest isValid hm⟩

end Worked

end Bindle
