import Bindle.Proofs.Invoice.Acceptance

/-!
# What a valid invoice promises

An invoice is valid when it was made of a draft. It is then what the draft describes, and the
checks that made it reported nothing, so what each of them looks for is absent: no two groups share
a name, no two parcels share one, and every group that a parcel names is declared. Everything that
is said of graphs and resolutions rests on these facts and on nothing else of the checks.

* `Invoice.IsValid`, `Invoice.WellFormed`: where an invoice comes from, and what is true of it.
* `InvoiceDraft.Describes`: what a draft says, said of an invoice.
* `ofDraft_eq_ok_iff`: which invoice is made of which draft, for all checks together.
* `Invoice.IsValid.wellFormed`: a valid invoice is well-formed.
* `Invoice.toDraft`: a draft for an invoice that is given, so that it can be made again.
* `Worked.invoice`: a small invoice with groups of each kind.
-/

namespace Bindle

open Check (yields_bind)

/-! ## Invoices -/

namespace Invoice

/-- The names of the declared groups. -/
def groupNames (i : Invoice) : List GroupName :=
  i.groups.map (·.name)

/-- The invoice was made of a draft. -/
def IsValid (i : Invoice) : Prop :=
  ∃ draft, Invoice.ofDraft draft = .ok i

/-- Names tell groups and parcels apart, and parcels name declared groups. -/
structure WellFormed (i : Invoice) : Prop where
  groupNames_nodup : i.groupNames.Nodup
  parcelNames_nodup : (i.parcels.map (·.name)).Nodup
  namesDeclared : ∀ parcel ∈ i.parcels, parcel.NamesDeclared i.groupNames

end Invoice

namespace InvoiceDraft

/-- What the draft says of the invoice: the groups and the parcels one by one and in order. -/
structure Describes (draft : InvoiceDraft) (i : Invoice) : Prop where
  bindleVersion : i.bindleVersion = draft.bindleVersion
  bindle : draft.bindle.Describes i.bindle
  annotations : i.annotations = draft.annotations.getD .empty
  groups : List.Forall₂ GroupDraft.Describes (draft.groups.getD []) i.groups
  parcels : List.Forall₂ ParcelDraft.Describes (draft.parcels.getD []) i.parcels
  yanked : i.yanked = draft.yanked.getD false

/-- The texts that must not be blank are not, and the labels are sound. -/
structure IsComplete (draft : InvoiceDraft) : Prop where
  bindleVersion : Text.trim draft.bindleVersion ≠ ""
  bindleName : Text.trim draft.bindle.name ≠ ""
  labels : ∀ parcel ∈ draft.parcels.getD [], parcel.label.MeetsSchema

theorem yields_assemble_iff {draft : InvoiceDraft} {i : Invoice} {mode : Reporting} :
    draft.assemble.Yields mode i ↔ draft.IsComplete ∧ draft.Describes i ∧ i.WellFormed := by
  unfold assemble
  rw [yields_bind]
  constructor
  · rintro ⟨_, hversion, h⟩
    obtain ⟨bindle, hbindle, h⟩ := yields_bind.1 h
    obtain ⟨groups, hgroups, h⟩ := yields_bind.1 h
    obtain ⟨parcels, hparcels, h⟩ := yields_bind.1 h
    rw [Check.yields_reportIf, Text.not_isBlank_iff] at hversion
    obtain ⟨hname, hinfo⟩ := BindleDraft.yields_check_iff.1 hbindle
    obtain ⟨hgroups, hgroupNames, -⟩ := yields_checkGroups_iff.1 hgroups
    obtain ⟨hlabels, hparcels, ⟨hparcelNames, -⟩, hdeclared⟩ := yields_checkParcels_iff.1 hparcels
    rw [← Check.yields_pure.1 h]
    exact ⟨⟨hversion, hname, hlabels⟩, ⟨rfl, hinfo, rfl, hgroups, hparcels, rfl⟩,
      ⟨hgroupNames, hparcelNames, hdeclared⟩⟩
  · rintro ⟨hcomplete, hdescribes, hwf⟩
    refine ⟨(), ?_, yields_bind.2 ⟨i.bindle, ?_, yields_bind.2 ⟨i.groups, ?_,
      yields_bind.2 ⟨i.parcels, ?_, ?_⟩⟩⟩⟩
    · rw [Check.yields_reportIf, Text.not_isBlank_iff]
      exact hcomplete.bindleVersion
    · exact BindleDraft.yields_check_iff.2 ⟨hcomplete.bindleName, hdescribes.bindle⟩
    · exact yields_checkGroups_iff.2
        ⟨hdescribes.groups, hwf.groupNames_nodup, List.disjoint_nil_right _⟩
    · exact yields_checkParcels_iff.2 ⟨hcomplete.labels, hdescribes.parcels,
        ⟨hwf.parcelNames_nodup, List.disjoint_nil_right _⟩, hwf.namesDeclared⟩
    · rw [Check.yields_pure, ← hdescribes.bindleVersion, ← hdescribes.annotations,
        ← hdescribes.yanked]

theorem check_eq_ok_iff {draft : InvoiceDraft} {i : Invoice} (mode : Reporting) :
    draft.check mode = .ok i ↔ draft.assemble.Yields mode i := by
  unfold check Check.Yields
  rcases draft.assemble mode with ⟨reported, _ | made⟩
  · simp
  · cases reported with
    | nil => simp
    | cons v vs => simp

end InvoiceDraft

namespace Invoice

/-- **What an invoice is made of.** A draft makes an invoice when it is complete, describes the
invoice, and the invoice is well-formed. -/
theorem ofDraft_eq_ok_iff {draft : InvoiceDraft} {i : Invoice} :
    Invoice.ofDraft draft = .ok i ↔ draft.IsComplete ∧ draft.Describes i ∧ i.WellFormed := by
  rw [← InvoiceDraft.yields_assemble_iff, ← InvoiceDraft.check_eq_ok_iff .failFast]
  unfold Invoice.ofDraft
  cases draft.check .failFast with
  | ok made => simp
  | error reported => cases reported <;> simp

/-- **A valid invoice is well-formed.** Its groups have different names, so have its parcels, and
each parcel names declared groups only. -/
theorem IsValid.wellFormed {i : Invoice} (h : i.IsValid) : i.WellFormed := by
  obtain ⟨draft, hdraft⟩ := h
  exact (ofDraft_eq_ok_iff.1 hdraft).2.2

end Invoice

/-! ## Drafts that spell out invoices -/

/-- The draft that spells out a label. -/
def Label.toDraft (label : Label) : LabelDraft where
  name := label.name
  digests := label.digests
  mediaType := some label.mediaType
  size := label.size
  annotations := label.annotations
  feature := label.feature

/-- The draft that spells out a parcel. -/
def Parcel.toDraft (p : Parcel) : ParcelDraft where
  label := p.label.toDraft
  conditions := some
    { memberOf := p.memberOf.map (·.map (·.text))
      requires := some (p.requires.map (·.toReference)) }

/-- The draft that spells out a group. -/
def Group.toDraft (g : Group) : GroupDraft where
  name := g.name.text
  required := some g.required
  satisfiedBy := some g.policy.toText

/-- The draft that spells out an invoice. -/
def Invoice.toDraft (i : Invoice) : InvoiceDraft where
  bindleVersion := i.bindleVersion
  yanked := some i.yanked
  bindle :=
    { name := i.bindle.name
      version := i.bindle.version.toText
      description := i.bindle.description
      authors := some i.bindle.authors }
  annotations := some i.annotations
  groups := some (i.groups.map (·.toDraft))
  parcels := some (i.parcels.map (·.toDraft))

/-! ## A worked scenario -/

namespace Worked

def server : GroupName := ⟨"server", by decide, by decide +kernel, by decide⟩

def cli : GroupName := ⟨"cli", by decide, by decide +kernel, by decide⟩

def utility : GroupName := ⟨"utility", by decide, by decide +kernel, by decide⟩

def label (name : String) : Label :=
  ⟨name, .single .sha256 "e1706a", Label.defaultMediaType, none, none, none⟩

/-- A bindle with a server and a choice of two tools. The server needs a utility, which the first
tool is and a parcel of its own; one parcel is always selected and one never is. -/
def invoice : Invoice where
  bindleVersion := "1.0.0"
  bindle := ⟨"example/weather", .ofNumbers 0 1 0, [], none⟩
  annotations := .empty
  groups := [⟨server, .allOf, false⟩, ⟨cli, .oneOf, true⟩, ⟨utility, .anyOf, false⟩]
  parcels := [
    ⟨label "daemon", some [server], [.named utility]⟩,
    ⟨label "first", some [cli, utility], []⟩,
    ⟨label "second", some [cli], []⟩,
    ⟨label "third", some [utility], []⟩,
    ⟨label "readme", none, []⟩,
    ⟨label "hidden", some [], []⟩]
  yanked := false

theorem isValid : invoice.IsValid := ⟨invoice.toDraft, by decide +kernel⟩

end Worked

end Bindle
