import Bindle.Proofs.Resolution.Closure
import Bindle.Proofs.Resolution.Report
import Bindle.Proofs.Resolution.Verdict

/-!
# What a manifest guarantees

Whoever reads a manifest sees labels and reports, and knows the declarations of the invoice. The
guarantees are stated in these terms alone. A manifest is only given when each required group got
what its policy asks for, and what is required covers the groups that the invoice requires, those
that the caller opted into, and those that a listed parcel requires.

* `Manifest.Requires`: a group is reported as required.
* `Manifest.IsSoundFor`: the guarantees.
* `requires_iff`, `mem_parcels_iff`: the terms of the manifest are those of the run.
* `isSoundFor_of_resolve`: what every successful resolution guarantees.
-/

namespace Bindle

/-- The group is reported as required. -/
def Manifest.Requires (m : Manifest) (name : GroupName) : Prop :=
  ∃ r ∈ m.report, r.group = .named name ∧ r.required = true

/-- The manifest keeps what the declarations of the invoice promise. -/
structure Manifest.IsSoundFor (m : Manifest) (i : Invoice) (policy : Policy) : Prop where
  global : ∀ parcel ∈ i.parcels, parcel.memberOf = none → parcel.label ∈ m.parcels
  allOf : ∀ group ∈ i.groups, group.policy = .allOf → m.Requires group.name →
    ∀ parcel ∈ i.parcels, parcel.Lists group.name → parcel.label ∈ m.parcels
  oneOf : ∀ group ∈ i.groups, group.policy = .oneOf → m.Requires group.name →
    ∃! parcel, parcel ∈ i.parcels ∧ parcel.Lists group.name ∧ parcel.label ∈ m.parcels
  anyOf : ∀ group ∈ i.groups, group.policy = .anyOf → m.Requires group.name →
    policy.anyOf = .atLeastOne →
    ∃ parcel ∈ i.parcels, parcel.Lists group.name ∧ parcel.label ∈ m.parcels
  declared : ∀ group ∈ i.groups, group.required = true → m.Requires group.name
  optedIn : ∀ text ∈ policy.optedIn,
    ∃ group ∈ i.groups, group.name.text = text ∧ m.Requires group.name
  needed : ∀ parcel ∈ i.parcels, parcel.label ∈ m.parcels →
    ∀ name, .named name ∈ parcel.requires → m.Requires name
  excluded : ∀ parcel ∈ i.parcels, parcel.memberOf = some [] → parcel.label ∉ m.parcels

namespace Run

variable {G : Graph} {policy : Policy} {run : Run} {g : GroupId}

/-! ## The terms of a manifest -/

theorem requires_iff (hG : G.invoice.WellFormed) {group : Group} (hg : G.group? g = some group) :
    (run.manifest G policy).Requires group.name ↔ g ∈ run.required := by
  unfold Manifest.Requires
  constructor
  · rintro ⟨r, hr, hgroup, hrequired⟩
    obtain ⟨g', -, rfl⟩ := mem_report_iff.1 hr
    obtain ⟨group', hg', hname⟩ := Graph.groupRef_eq_named_iff.1 hgroup
    have heq : g' = g := Graph.group?_inj hG hg' hg hname
    subst heq
    exact List.contains_iff_mem.1 hrequired
  · intro hrequired
    refine ⟨run.reportOn G policy g, mem_report_iff.2 ⟨g, ?_, rfl⟩, ?_, ?_⟩
    · exact Graph.mem_groupIds_of_group? hg
    · exact Graph.groupRef_of_group? hg
    · exact List.contains_iff_mem.2 hrequired

/-- Among the selected members of a group are those of its parcels that are listed. -/
theorem exists_listed (hG : G.invoice.WellFormed) {group : Group}
    (hg : G.group? g = some group) {p : ParcelId} (hp : p ∈ G.members g)
    (hsel : p ∈ run.selection) :
    ∃ parcel, G.parcel? p = some parcel ∧ parcel ∈ G.invoice.parcels ∧
      parcel.Lists group.name ∧ parcel.label ∈ (run.manifest G policy).parcels := by
  obtain ⟨parcel, hparcel, hlists⟩ := (Graph.mem_members_of_group? hg).1 hp
  exact ⟨parcel, hparcel, Graph.mem_parcels_of_parcel? hparcel, hlists,
    (mem_parcels_iff hG hparcel).2 hsel⟩

/-- A listed parcel that lists a group is a selected member of it. -/
theorem exists_selected (hG : G.invoice.WellFormed) {group : Group}
    (hg : G.group? g = some group) {parcel : Parcel} (hparcel : parcel ∈ G.invoice.parcels)
    (hlists : parcel.Lists group.name) (hlabel : parcel.label ∈ (run.manifest G policy).parcels) :
    ∃ p, G.parcel? p = some parcel ∧ p ∈ G.members g ∧ p ∈ run.selection := by
  obtain ⟨p, hp⟩ := Graph.exists_parcel?_of_mem hparcel
  exact ⟨p, hp, (Graph.mem_members_of_group? hg).2 ⟨parcel, hp, hlists⟩,
    (mem_parcels_iff hG hp).1 hlabel⟩

end Run

/-! ## Guarantees -/

namespace Graph

variable {G : Graph} {policy : Policy} {chooser : Chooser} {run : Run} {g : GroupId}

theorem Passes.mem_required_of_root (h : G.Passes policy chooser run) (hg : g ∈ G.groupIds)
    (hroot : G.isRootRequired g = true) : g ∈ run.required :=
  h.initiallyRequired_sub (mem_initiallyRequired_iff.2 ⟨hg, .inl hroot⟩)

/-- The end of a run without errors guarantees what a manifest is to guarantee. -/
theorem Passes.isSoundFor (h : G.Passes policy chooser run) (hG : G.invoice.WellFormed)
    (hopt : G.DeclaresOptIns policy) (hquiet : run.IsQuiet G)
    (hfulfils : ∀ g ∈ run.required, G.Fulfils policy.anyOf {p | p ∈ run.selection} g) :
    (run.manifest G policy).IsSoundFor G.invoice policy where
  global := by
    intro parcel hparcel hnone
    obtain ⟨p, hp⟩ := exists_parcel?_of_mem hparcel
    have hrequired : .global ∈ run.required := h.mem_required_of_root global_mem_groupIds rfl
    have hmem : p ∈ G.members .global := mem_members_global.2 ⟨parcel, hp, hnone⟩
    exact (Run.mem_parcels_iff hG hp).2 (hquiet.pulled _ hrequired policy_global p hmem)
  allOf := by
    intro group hgroup hpolicy hrequires parcel hparcel hlists
    obtain ⟨g, hg⟩ := exists_group?_of_mem hgroup
    obtain ⟨p, hp⟩ := exists_parcel?_of_mem hparcel
    have hrequired := (Run.requires_iff hG hg).1 hrequires
    have hmem := (mem_members_of_group? hg).2 ⟨parcel, hp, hlists⟩
    have hsel := hquiet.pulled g hrequired ((policy_of_group? hg).trans hpolicy) p hmem
    exact (Run.mem_parcels_iff hG hp).2 hsel
  oneOf := by
    intro group hgroup hpolicy hrequires
    obtain ⟨g, hg⟩ := exists_group?_of_mem hgroup
    have hrequired := (Run.requires_iff hG hg).1 hrequires
    obtain ⟨p, ⟨hp, hsel⟩, hunique⟩ :=
      (fulfils_oneOf ((policy_of_group? hg).trans hpolicy)).1 (hfulfils g hrequired)
    obtain ⟨parcel, hparcel, hmem, hlists, hlabel⟩ := Run.exists_listed hG hg hp hsel
    refine ⟨parcel, ⟨hmem, hlists, hlabel⟩, ?_⟩
    rintro other ⟨hother, hlists', hlabel'⟩
    obtain ⟨q, hq, hmem', hsel'⟩ := Run.exists_selected hG hg hother hlists' hlabel'
    rw [hunique q ⟨hmem', hsel'⟩, hparcel] at hq
    exact (Option.some.inj hq).symm
  anyOf := by
    intro group hgroup hpolicy hrequires hreading
    obtain ⟨g, hg⟩ := exists_group?_of_mem hgroup
    have hrequired := (Run.requires_iff hG hg).1 hrequires
    obtain ⟨p, hp, hsel⟩ :=
      (fulfils_anyOf ((policy_of_group? hg).trans hpolicy)).1 (hfulfils g hrequired) hreading
    obtain ⟨parcel, -, hmem, hlists, hlabel⟩ := Run.exists_listed hG hg hp hsel
    exact ⟨parcel, hmem, hlists, hlabel⟩
  declared := by
    intro group hgroup hdeclared
    obtain ⟨g, hg⟩ := exists_group?_of_mem hgroup
    refine (Run.requires_iff hG hg).2 (h.mem_required_of_root (mem_groupIds_of_group? hg) ?_)
    exact (isRootRequired_of_group? hg).trans hdeclared
  optedIn := by
    intro text htext
    obtain ⟨group, hgroup, rfl⟩ := hopt text htext
    obtain ⟨g, hg⟩ := exists_group?_of_mem hgroup
    have hopted : g ∈ G.optedIn policy := (mem_optedIn_iff hG).2 ⟨group, hg, htext⟩
    have hinit := mem_initiallyRequired_iff.2 ⟨mem_groupIds_of_group? hg, .inr hopted⟩
    exact ⟨group, hgroup, rfl, (Run.requires_iff hG hg).2 (h.initiallyRequired_sub hinit)⟩
  needed := by
    intro parcel hparcel hlabel name hname
    obtain ⟨p, hp⟩ := exists_parcel?_of_mem hparcel
    have hdeclared := (hG.namesDeclared parcel hparcel).requires name hname
    obtain ⟨group, hgroup, rfl⟩ := List.mem_map.1 hdeclared
    obtain ⟨g, hg⟩ := exists_group?_of_mem hgroup
    have hneeds : G.needs p g = true := needs_iff.2 ⟨parcel, hp, group, hg, hname⟩
    have hsel := (Run.mem_parcels_iff hG hp).1 hlabel
    exact (Run.requires_iff hG hg).2 (hquiet.spread p hsel g hneeds)
  excluded := by
    intro parcel hparcel hempty hlabel
    obtain ⟨p, hp⟩ := exists_parcel?_of_mem hparcel
    obtain ⟨g, -, -, hmem⟩ := h.exists_group hquiet ((Run.mem_parcels_iff hG hp).1 hlabel)
    have hkept := not_isExcluded_of_mem_members hmem hp
    simp [Parcel.isExcluded, hempty] at hkept

end Graph

/-- **Manifests are sound.** If an invoice resolves, whoever answered the questions, the manifest
keeps what the declarations of the invoice promise: required groups are satisfied, no group is
missing among the required ones, and parcels in no group are left out. -/
theorem Invoice.isSoundFor_of_resolve {i : Invoice} (hi : i.IsValid) {policy : Policy}
    {chooser : Chooser} {allowYanked : Bool} {m : Manifest}
    (h : (i.resolve policy chooser allowYanked).result = .ok m) : m.IsSoundFor i policy := by
  obtain ⟨-, -, hresult⟩ := Invoice.resolve_eq_ok_iff.1 h
  obtain ⟨run, hrun, hnone, rfl⟩ := Graph.resolve_eq_ok_iff.1 hresult
  obtain ⟨hpasses, hquiet⟩ := Graph.passes_of_settledRun hrun
  exact hpasses.isSoundFor hi.wellFormed (Graph.of_settledRun_eq_ok hrun).2 hquiet fun g hg =>
    Graph.fulfils_of_errorsAtEnd hrun hnone hg

theorem Worked.isSoundFor_manifest : Worked.manifest.IsSoundFor Worked.invoice Worked.policy :=
  Invoice.isSoundFor_of_resolve Worked.isValid Worked.resolve_eq

end Bindle
