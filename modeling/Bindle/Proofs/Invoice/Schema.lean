import Bindle.Proofs.Invoice.Validity

/-!
# The schema of invoices

The schema says which drafts are invoices, in the terms of the draft alone. The checks accept
exactly these, and the invoice that they make has everything that the draft says: each group and
each parcel in its place, and each list of conditions with nothing but its later repeats left out.

One direction reads the schema off the invoice that was made, whose names are proofs of their own
form. The other makes the invoice: every group, label and list of conditions that meets the schema
has something that it describes, and what they describe fits together because the names do.

* `InvoiceDraft.MeetsSchema`: the schema.
* `InvoiceDraft.Describes.meetsSchema`, `InvoiceDraft.MeetsSchema.exists_describes`: the two
  directions.
* `Invoice.ofDraft_meets_schema`: both, and what is kept.
-/

namespace Bindle

/-! ## The schema -/

/-- A text that a group may be called by. -/
structure IsGroupName (text : String) : Prop where
  ne_empty : text ≠ ""
  trimmed : Text.trim text = text
  ne_global : text ≠ "<global>"

/-- What the schema asks of a group. -/
structure GroupDraft.MeetsSchema (draft : GroupDraft) : Prop where
  name : IsGroupName draft.name
  policy : ∀ text, draft.satisfiedBy = some text → text ∈ ["allOf", "oneOf", "anyOf"]

/-- What the schema asks of a parcel's place, given the names of the groups that are declared; the
empty text may be required, and stands for the global group. -/
structure ConditionsDraft.MeetsSchema (draft : ConditionsDraft) (declared : List String) :
    Prop where
  memberOf : ∀ text ∈ draft.memberOf.getD [], text ∈ declared
  requires : ∀ text ∈ draft.requires.getD [], text = "" ∨ text ∈ declared

/-- What the schema asks of a parcel. -/
structure ParcelDraft.MeetsSchema (draft : ParcelDraft) (declared : List String) : Prop where
  label : draft.label.MeetsSchema
  conditions : (draft.conditions.getD {}).MeetsSchema declared

namespace InvoiceDraft

/-- The names under which groups are declared. -/
def groupNames (draft : InvoiceDraft) : List String :=
  (draft.groups.getD []).map (·.name)

/-- What the schema asks of an invoice. -/
structure MeetsSchema (draft : InvoiceDraft) : Prop where
  bindleVersion : Text.trim draft.bindleVersion ≠ ""
  bindleName : Text.trim draft.bindle.name ≠ ""
  version : ∃ version, Version.parse (Text.trim draft.bindle.version) = .ok version
  groups : ∀ group ∈ draft.groups.getD [], group.MeetsSchema
  groupNames_nodup : draft.groupNames.Nodup
  parcels : ∀ parcel ∈ draft.parcels.getD [], parcel.MeetsSchema draft.groupNames
  parcelNames_nodup : ((draft.parcels.getD []).map (·.label.name)).Nodup

end InvoiceDraft

/-! ## Lists that correspond -/

section Lists

variable {α β γ : Type} {R : α → β → Prop} {l : List α} {m : List β}

theorem exists_forall₂ (h : ∀ a ∈ l, ∃ b, R a b) : ∃ m, List.Forall₂ R l m := by
  induction l with
  | nil => exact ⟨[], .nil⟩
  | cons a rest ih =>
    obtain ⟨b, hb⟩ := h a List.mem_cons_self
    obtain ⟨m, hm⟩ := ih fun a' ha' => h a' (List.mem_cons_of_mem _ ha')
    exact ⟨b :: m, .cons hb hm⟩

theorem exists_of_forall₂ (h : List.Forall₂ R l m) {a : α} (ha : a ∈ l) : ∃ b ∈ m, R a b := by
  induction h with
  | nil => cases ha
  | cons hab _ ih =>
    rcases List.mem_cons.1 ha with rfl | ha
    · exact ⟨_, List.mem_cons_self, hab⟩
    · obtain ⟨b, hb, hrel⟩ := ih ha
      exact ⟨b, List.mem_cons_of_mem _ hb, hrel⟩

theorem map_eq_map_of_forall₂ (h : List.Forall₂ R l m) {f : α → γ} {g : β → γ}
    (hsame : ∀ a b, R a b → g b = f a) : m.map g = l.map f := by
  induction h with
  | nil => rfl
  | cons hab _ ih => rw [List.map_cons, List.map_cons, hsame _ _ hab, ih]

end Lists

/-! ## What was made meets the schema -/

theorem GroupDraft.Describes.meetsSchema {draft : GroupDraft} {group : Group}
    (h : draft.Describes group) : draft.MeetsSchema := by
  constructor
  · rw [← h.name]
    exact ⟨group.name.ne_empty, group.name.trimmed, group.name.ne_global⟩
  · intro text htext
    have hpolicy := h.policy
    rw [htext, Option.getD_some] at hpolicy
    rw [← hpolicy]
    cases group.policy <;> simp [GroupPolicy.toText]

theorem ConditionsDraft.Describes.meetsSchema {draft : ConditionsDraft} {p : Parcel}
    {declared : List GroupName} (h : draft.Describes p) (hdeclared : p.NamesDeclared declared) :
    draft.MeetsSchema (declared.map (·.text)) := by
  constructor
  · intro text htext
    have hmemberOf := h.memberOf
    cases htexts : draft.memberOf with
    | none => simp [htexts] at htext
    | some texts =>
      rw [htexts, Option.getD_some, ← List.mem_eraseDups] at htext
      rw [htexts, Option.map_some, Option.map_eq_some_iff] at hmemberOf
      obtain ⟨names, hnames, hsame⟩ := hmemberOf
      rw [← hsame] at htext
      obtain ⟨name, hname, rfl⟩ := List.mem_map.1 htext
      exact List.mem_map_of_mem (hdeclared.memberOf names hnames name hname)
  · intro text htext
    rw [← List.mem_eraseDups, ← h.requires] at htext
    obtain ⟨ref, href, rfl⟩ := List.mem_map.1 htext
    cases ref with
    | global => exact .inl rfl
    | named name => exact .inr (List.mem_map_of_mem (hdeclared.requires name href))

namespace InvoiceDraft

variable {draft : InvoiceDraft} {i : Invoice}

theorem Describes.groupNames_eq (h : draft.Describes i) :
    i.groupNames.map (·.text) = draft.groupNames := by
  rw [Invoice.groupNames, List.map_map]
  exact map_eq_map_of_forall₂ h.groups fun _ _ hgroup => hgroup.name

theorem Describes.parcelNames_eq (h : draft.Describes i) :
    i.parcels.map (·.name) = (draft.parcels.getD []).map (·.label.name) :=
  map_eq_map_of_forall₂ h.parcels fun _ _ hparcel => hparcel.label.name

/-- A draft of which a well-formed invoice was made meets the schema. -/
theorem Describes.meetsSchema (h : draft.Describes i) (hcomplete : draft.IsComplete)
    (hwf : i.WellFormed) : draft.MeetsSchema where
  bindleVersion := hcomplete.bindleVersion
  bindleName := hcomplete.bindleName
  version := ⟨_, h.bindle.version⟩
  groups := by
    intro group hgroup
    obtain ⟨made, -, hmade⟩ := exists_of_forall₂ h.groups hgroup
    exact hmade.meetsSchema
  groupNames_nodup := by
    rw [← h.groupNames_eq]
    exact hwf.groupNames_nodup.map GroupName.text_injective
  parcels := by
    intro parcel hparcel
    obtain ⟨made, hmem, hmade⟩ := exists_of_forall₂ h.parcels hparcel
    rw [← h.groupNames_eq]
    exact ⟨hcomplete.labels parcel hparcel,
      hmade.conditions.meetsSchema (hwf.namesDeclared made hmem)⟩
  parcelNames_nodup := h.parcelNames_eq ▸ hwf.parcelNames_nodup

end InvoiceDraft

/-! ## What meets the schema can be made -/

theorem GroupDraft.MeetsSchema.exists_describes {draft : GroupDraft} (h : draft.MeetsSchema) :
    ∃ group, draft.Describes group := by
  obtain ⟨policy, hpolicy⟩ : ∃ policy : GroupPolicy,
      policy.toText = draft.satisfiedBy.getD "allOf" := by
    cases htext : draft.satisfiedBy with
    | none => exact ⟨.allOf, rfl⟩
    | some text =>
      have hmem := h.policy text htext
      simp only [List.mem_cons, List.not_mem_nil, or_false] at hmem
      rcases hmem with rfl | rfl | rfl
      · exact ⟨.allOf, rfl⟩
      · exact ⟨.oneOf, rfl⟩
      · exact ⟨.anyOf, rfl⟩
  exact ⟨⟨⟨draft.name, h.name.ne_empty, h.name.trimmed, h.name.ne_global⟩, policy,
    draft.required.getD false⟩, rfl, hpolicy, rfl⟩

/-- Texts that are names of declared groups stand for them. -/
theorem exists_memberOf {declared : List GroupName} {texts? : Option (List String)}
    (h : ∀ text ∈ texts?.getD [], text ∈ declared.map (·.text)) :
    ∃ names? : Option (List GroupName),
      names?.map (·.map (·.text)) = texts?.map (·.eraseDups) ∧
        ∀ names, names? = some names → ∀ name ∈ names, name ∈ declared := by
  cases texts? with
  | none => exact ⟨none, rfl, by simp⟩
  | some texts =>
    have hfrom : ∀ text ∈ texts.eraseDups, ∃ name, name ∈ declared ∧ name.text = text := by
      intro text htext
      exact List.mem_map.1 (h text (List.mem_eraseDups.1 htext))
    obtain ⟨names, hnames, hdeclared⟩ := exists_map_eq hfrom
    refine ⟨some names, congrArg some hnames, fun names' hsame => ?_⟩
    exact Option.some.inj hsame ▸ hdeclared

theorem exists_requires {declared : List GroupName} {texts : List String}
    (h : ∀ text ∈ texts, text = "" ∨ text ∈ declared.map (·.text)) :
    ∃ refs : List GroupRef, refs.map (·.toReference) = texts.eraseDups ∧
      ∀ name, .named name ∈ refs → name ∈ declared := by
  have hfrom : ∀ text ∈ texts.eraseDups,
      ∃ ref : GroupRef, (∀ name, ref = .named name → name ∈ declared) ∧
        ref.toReference = text := by
    intro text htext
    rcases h text (List.mem_eraseDups.1 htext) with rfl | hnamed
    · exact ⟨.global, nofun, rfl⟩
    · obtain ⟨name, hname, rfl⟩ := List.mem_map.1 hnamed
      exact ⟨.named name, fun other hother => GroupRef.named.inj hother ▸ hname, rfl⟩
  obtain ⟨refs, hrefs, hdeclared⟩ := exists_map_eq hfrom
  exact ⟨refs, hrefs, fun name hname => hdeclared _ hname name rfl⟩

theorem ParcelDraft.MeetsSchema.exists_describes {draft : ParcelDraft}
    {declared : List GroupName} (h : draft.MeetsSchema (declared.map (·.text))) :
    ∃ p : Parcel, draft.Describes p ∧ p.NamesDeclared declared := by
  obtain ⟨memberOf, hmemberOf, hmembers⟩ := exists_memberOf h.conditions.memberOf
  obtain ⟨requires, hrequires, hrequired⟩ := exists_requires h.conditions.requires
  refine ⟨⟨⟨draft.label.name, draft.label.digests,
    draft.label.mediaType.getD Label.defaultMediaType, draft.label.size, draft.label.annotations,
    draft.label.feature⟩, memberOf, requires⟩, ⟨?_, hmemberOf, hrequires⟩, hmembers, hrequired⟩
  exact ⟨rfl, rfl, rfl, rfl, rfl, rfl⟩

namespace InvoiceDraft

variable {draft : InvoiceDraft}

theorem MeetsSchema.isComplete (h : draft.MeetsSchema) : draft.IsComplete :=
  ⟨h.bindleVersion, h.bindleName, fun parcel hparcel => (h.parcels parcel hparcel).label⟩

/-- A draft that meets the schema describes a well-formed invoice. -/
theorem MeetsSchema.exists_describes (h : draft.MeetsSchema) :
    ∃ i, draft.Describes i ∧ i.WellFormed := by
  obtain ⟨version, hversion⟩ := h.version
  obtain ⟨groups, hgroups⟩ := exists_forall₂ fun group hgroup =>
    (h.groups group hgroup).exists_describes
  have hnames : (groups.map (·.name)).map (·.text) = draft.groupNames := by
    rw [List.map_map]
    exact map_eq_map_of_forall₂ hgroups fun _ _ hgroup => hgroup.name
  have hmeets : ∀ parcel ∈ draft.parcels.getD [],
      parcel.MeetsSchema ((groups.map (·.name)).map (·.text)) := hnames ▸ h.parcels
  obtain ⟨parcels, hparcels⟩ := exists_forall₂ fun parcel hparcel =>
    (hmeets parcel hparcel).exists_describes
  let i : Invoice :=
    { bindleVersion := draft.bindleVersion
      bindle := ⟨draft.bindle.name, version, draft.bindle.authors.getD [],
        draft.bindle.description⟩
      annotations := draft.annotations.getD .empty
      groups
      parcels
      yanked := draft.yanked.getD false }
  have hdescribes : draft.Describes i :=
    ⟨rfl, ⟨rfl, hversion, rfl, rfl⟩, rfl, hgroups, hparcels.imp fun _ _ hp => hp.1, rfl⟩
  refine ⟨i, hdescribes, ?_, ?_, fun parcel hparcel => ?_⟩
  · have hnodup := h.groupNames_nodup
    rw [← hdescribes.groupNames_eq] at hnodup
    exact hnodup.of_map _
  · rw [hdescribes.parcelNames_eq]
    exact h.parcelNames_nodup
  · obtain ⟨_, -, -, hdeclared⟩ := exists_of_forall₂ hparcels.flip hparcel
    exact hdeclared

end InvoiceDraft

/-! ## Drafts and invoices -/

/-- **The checks accept the schema and lose nothing.** A draft makes an invoice exactly when it
meets the schema, and the invoice has what the draft says: its groups and its parcels one by one
and in order, each with the lists of conditions that its draft gives, where a list that is left out
stays apart from an empty one and later repeats are dropped. -/
theorem Invoice.ofDraft_meets_schema (draft : InvoiceDraft) :
    ((∃ i, Invoice.ofDraft draft = .ok i) ↔ draft.MeetsSchema) ∧
      ∀ i, Invoice.ofDraft draft = .ok i → draft.Describes i := by
  constructor
  · constructor
    · rintro ⟨i, hi⟩
      obtain ⟨hcomplete, hdescribes, hwf⟩ := Invoice.ofDraft_eq_ok_iff.1 hi
      exact hdescribes.meetsSchema hcomplete hwf
    · intro hmeets
      obtain ⟨i, hdescribes, hwf⟩ := hmeets.exists_describes
      exact ⟨i, Invoice.ofDraft_eq_ok_iff.2 ⟨hmeets.isComplete, hdescribes, hwf⟩⟩
  · intro i hi
    exact (Invoice.ofDraft_eq_ok_iff.1 hi).2.1

namespace Worked

def labelDraft (name : String) : LabelDraft where
  name := name
  digests := .single .sha256 "e1706a"

/-- A draft that repeats itself; one parcel leaves out its groups, and one has none. -/
def repetitive : InvoiceDraft where
  bindleVersion := "1.0.0"
  bindle := { name := "example/weather", version := " 0.1.0 " }
  groups := some [{ name := "server" }, { name := "cli", satisfiedBy := some "oneOf" }]
  parcels := some [
    { label := labelDraft "daemon"
      conditions := some
        { memberOf := some ["server", "cli", "server"], requires := some ["", "cli", "", "cli"] } },
    { label := labelDraft "readme" },
    { label := labelDraft "hidden", conditions := some { memberOf := some [] } }]

/-- The invoice that is made of it, with each condition once. -/
def concise : Invoice where
  bindleVersion := "1.0.0"
  bindle := ⟨"example/weather", .ofNumbers 0 1 0, [], none⟩
  annotations := .empty
  groups := [⟨server, .allOf, false⟩, ⟨cli, .oneOf, false⟩]
  parcels := [
    ⟨label "daemon", some [server, cli], [.global, .named cli]⟩,
    ⟨label "readme", none, []⟩,
    ⟨label "hidden", some [], []⟩]
  yanked := false

theorem repetitive_meets_schema : repetitive.MeetsSchema ∧ repetitive.Describes concise := by
  have hmade : Invoice.ofDraft repetitive = .ok concise := by decide +kernel
  obtain ⟨hschema, hdescribes⟩ := Invoice.ofDraft_meets_schema repetitive
  exact ⟨hschema.1 ⟨concise, hmade⟩, hdescribes concise hmade⟩

end Worked

end Bindle
