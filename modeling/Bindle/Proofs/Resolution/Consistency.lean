import Bindle.Proofs.Graph.Relations
import Bindle.Proofs.Resolution.Completeness

/-!
# A manifest agrees with itself

A manifest says in several places what was selected and what is required: the labels, and for each
group the members, whether it is required, why, and whether it is satisfied. All of it can be
recovered from the labels. Once a run is quiet a group is required exactly when it was so at the
outset or a selected parcel calls for it; so a required group always has a reason that can be
named, and no listed parcel calls for a group that is not required.

* `Manifest.namesOf`: the listed parcels with a property, by name.
* `Run.parcelNames_filter`: what a run finds by position is found among the declarations.
* `Run.reason_of_group?`: the reason for a declared group, by the labels.
* `RequiredReason.Explains`, `GroupReport.FollowsFrom`, `Manifest.IsConsistent`: what the parts of
  a manifest have to do with each other.
* `Graph.isConsistent_of_resolve`: what a resolution ends with is consistent.
-/

namespace Bindle

/-! ## Parcels by the labels -/

instance (p : Parcel) (ref : GroupRef) : Decidable (p.BelongsTo ref) :=
  match ref with
  | .global => inferInstanceAs (Decidable (p.memberOf = none))
  | .named _ => decidable_of_iff _ Parcel.isMemberOf_iff

instance (p : Parcel) (ref : GroupRef) : Decidable (p.CallsFor ref) :=
  match ref with
  | .global => .isFalse id
  | .named name => inferInstanceAs (Decidable (.named name ∈ p.requires))

/-- The names of the parcels that are listed and have the property, in order of declaration. -/
def Manifest.namesOf (m : Manifest) (i : Invoice) (P : Parcel → Prop) [DecidablePred P] :
    List String :=
  (i.parcels.filter fun p => P p ∧ p.label ∈ m.parcels).map (·.name)

namespace Run

variable {G : Graph} {policy : Policy} {run : Run} {g : GroupId} {group : Group}

/-- The labels that are listed are those of the invoice, in order. -/
theorem labels_sublist : (run.labels G).Sublist (G.invoice.parcels.map (·.label)) := by
  rw [← Graph.map_snd_declaredParcels, List.map_map]
  exact List.filter_sublist.map _

/-- The selected parcels with a property, by position and by declaration. -/
theorem parcelNames_filter (hG : G.invoice.WellFormed) {f : ParcelId → Bool} {P : Parcel → Prop}
    [DecidablePred P]
    (hf : ∀ p parcel, G.parcel? p = some parcel → (f p = true ↔ p ∈ run.selection ∧ P parcel)) :
    G.parcelNames (G.parcelIds.filter f) = (run.manifest G policy).namesOf G.invoice P := by
  have hpicked : ∀ d ∈ G.declaredParcels,
      f d.1 = Decidable.decide (P d.2 ∧ d.2.label ∈ (run.manifest G policy).parcels) := by
    intro d hd
    have hparcel := Graph.mem_declaredParcels.1 hd
    rw [Bool.eq_iff_iff, hf _ _ hparcel, decide_eq_true_iff, mem_parcels_iff hG hparcel, and_comm]
  have hnamed : ∀ d ∈ G.declaredParcels.filter fun d => f d.1, G.parcelName d.1 = d.2.name := by
    intro d hd
    exact Graph.parcelName_of_parcel? (Graph.mem_declaredParcels.1 (List.mem_filter.1 hd).1)
  calc G.parcelNames (G.parcelIds.filter f)
      = (G.declaredParcels.filter fun d => f d.1).map (fun d => G.parcelName d.1) := by
        rw [Graph.parcelNames, ← Graph.map_fst_declaredParcels, List.filter_map, List.map_map]
        rfl
    _ = (G.declaredParcels.filter fun d => f d.1).map (·.2.name) := List.map_congr_left hnamed
    _ = (run.manifest G policy).namesOf G.invoice P := by
        rw [List.filter_congr hpicked, Manifest.namesOf, ← Graph.map_snd_declaredParcels,
          List.filter_map, List.map_map]
        rfl

/-- The members that a report lists. -/
theorem selected_eq (hG : G.invoice.WellFormed) (hg : g ∈ G.groupIds) :
    (run.reportOn G policy g).selected =
      (run.manifest G policy).namesOf G.invoice (·.BelongsTo (G.groupRef g)) := by
  rw [reportOn, Graph.selectedMembers, Graph.members_eq_filter, List.filter_filter]
  refine parcelNames_filter hG fun p parcel hparcel => ?_
  rw [Bool.and_eq_true, decide_eq_true_iff, Graph.holds_iff_belongsTo hg hparcel]

/-- The selected parcels that call for a group. -/
theorem callers_eq (hG : G.invoice.WellFormed) (hg : g ∈ G.groupIds) :
    G.parcelNames ((G.requiredBy g).filter (run.selection.contains ·)) =
      (run.manifest G policy).namesOf G.invoice (·.CallsFor (G.groupRef g)) := by
  rw [Graph.requiredBy_eq_filter, List.filter_filter]
  refine parcelNames_filter hG fun p parcel hparcel => ?_
  rw [Bool.and_eq_true, List.contains_iff_mem, Graph.needs_iff_callsFor hg hparcel]

/-! ## Reasons -/

/-- A selected parcel calls for a group if any does in the list of those who do. -/
theorem parcelNames_requiredBy_ne_nil_iff :
    G.parcelNames ((G.requiredBy g).filter (run.selection.contains ·)) ≠ [] ↔
      ∃ p ∈ run.selection, g ∈ G.requires p := by
  rw [Graph.parcelNames, ne_eq, List.map_eq_nil_iff, List.filter_eq_nil_iff]
  simp only [Graph.mem_requiredBy, Graph.mem_requires, List.contains_iff_mem, not_forall, not_not]
  exact exists_congr fun p => ⟨fun ⟨hneeds, hp⟩ => ⟨hp, hneeds⟩, fun ⟨hp, hneeds⟩ => ⟨hneeds, hp⟩⟩

variable {chooser : Chooser}

/-- The reason for a declared group. Without being required at the outset it is required if a
listed parcel calls for it, and not otherwise. -/
theorem reason_of_group? (hG : G.invoice.WellFormed) (hpasses : G.Passes policy chooser run)
    (hquiet : run.IsQuiet G) (hgroup : G.group? g = some group) :
    let callers := (run.manifest G policy).namesOf G.invoice (·.CallsFor (G.groupRef g))
    run.reason G policy g =
      if group.required then .declared
      else if group.name.text ∈ policy.optedIn then .optedIn
      else if callers = [] then .notRequired
      else .requiredBy callers := by
  intro callers
  have hg := Graph.mem_groupIds_of_group? hgroup
  have hglobal : ¬g.isGlobal = true := by
    rw [Graph.isGlobal_iff]
    rintro rfl
    cases hgroup
  have hopted : g ∈ G.optedIn policy ↔ group.name.text ∈ policy.optedIn := by
    rw [Graph.mem_optedIn_iff hG]
    simp [hgroup]
  have hcallers : G.parcelNames ((G.requiredBy g).filter (run.selection.contains ·)) = callers :=
    callers_eq hG hg
  have hroot : G.isRootRequired g = group.required := Graph.isRootRequired_of_group? hgroup
  rw [reason, if_neg hglobal, hroot, hcallers]
  simp only [List.contains_iff_mem, hopted]
  split
  · rfl
  rename_i hnotRoot
  split
  · rfl
  rename_i hnotOpted
  have hrequired : g ∈ run.required ↔ callers ≠ [] := by
    rw [hpasses.mem_required_iff hquiet, Graph.Demands, Graph.mem_initiallyRequired_iff, hroot,
      hopted, ← hcallers, parcelNames_requiredBy_ne_nil_iff]
    simp [hnotRoot, hnotOpted]
  simp only [hrequired, ne_eq, ite_not]

/-- A group is reported as required exactly when there is a reason. -/
theorem reason_ne_notRequired_iff (hroots : G.initiallyRequired policy ⊆ run.required)
    (hg : g ∈ G.groupIds) : run.reason G policy g ≠ .notRequired ↔ g ∈ run.required := by
  have hroot : G.isRootRequired g = true ∨ g ∈ G.optedIn policy → g ∈ run.required :=
    fun h => hroots (Graph.mem_initiallyRequired_iff.2 ⟨hg, h⟩)
  unfold reason
  split
  · rename_i hglobal
    obtain rfl := Graph.isGlobal_iff.1 hglobal
    simp [hroot (.inl rfl)]
  split
  · rename_i hdeclared
    simp [hroot (.inl hdeclared)]
  split
  · rename_i hopted
    simp [hroot (.inr (List.contains_iff_mem.1 hopted))]
  split
  · rename_i hrequired
    simp [List.contains_iff_mem.1 hrequired]
  · rename_i hnot
    simpa using hnot

end Run

/-! ## The parts of a manifest -/

/-- The reference is to a declared group with the property. -/
def Invoice.Declares (i : Invoice) (ref : GroupRef) (P : Group → Prop) : Prop :=
  ∃ group ∈ i.groups, ref = .named group.name ∧ P group

/-- The reason is the first that holds for the group, where the callers are those parcels that
would require it. -/
structure RequiredReason.Explains (reason : RequiredReason) (i : Invoice) (policy : Policy)
    (callers : List String) (ref : GroupRef) : Prop where
  global : reason = .global ↔ ref = .global
  declared : reason = .declared ↔ i.Declares ref (·.required = true)
  optedIn : reason = .optedIn ↔
    i.Declares ref fun group => group.required = false ∧ group.name.text ∈ policy.optedIn
  /-- Every other group is required by its callers, if it has any. -/
  otherwise :
    (i.Declares ref fun group => group.required = false ∧ group.name.text ∉ policy.optedIn) →
      reason = if callers = [] then .notRequired else .requiredBy callers

/-- The report on a group says what follows from the labels that the manifest lists. -/
structure GroupReport.FollowsFrom (r : GroupReport) (m : Manifest) (i : Invoice) (policy : Policy) :
    Prop where
  /-- The members of the group that are listed are selected, in order of declaration. -/
  selected : r.selected = m.namesOf i (·.BelongsTo r.group)
  required : r.required = true ↔ r.reason ≠ .notRequired
  satisfied : r.required = true → r.satisfied = true
  /-- The listed parcels that call for the group are its callers. -/
  reason : r.reason.Explains i policy (m.namesOf i (·.CallsFor r.group)) r.group

/-- What a manifest says in one place agrees with what it says in the others. -/
structure Manifest.IsConsistent (m : Manifest) (i : Invoice) (policy : Policy) : Prop where
  parcels : m.parcels.Sublist (i.parcels.map (·.label))
  nodup_parcelNames : m.parcelNames.Nodup
  /-- There is one report on each group, the global one first. -/
  groups : m.report.map (·.group) = .global :: i.groups.map (.named ·.name)
  nodup_groups : (m.report.map (·.group)).Nodup
  report : ∀ r ∈ m.report, r.FollowsFrom m i policy

namespace Graph

variable {G : Graph} {g : GroupId} {group : Group} {policy : Policy} {chooser : Chooser}
  {run : Run} {m : Manifest}

theorem declares_iff (hG : G.invoice.WellFormed) (hgroup : G.group? g = some group)
    {P : Group → Prop} : G.invoice.Declares (G.groupRef g) P ↔ P group := by
  rw [groupRef_of_group? hgroup]
  constructor
  · rintro ⟨other, hother, hname, hP⟩
    obtain ⟨h, hh⟩ := exists_group?_of_mem hother
    have heq : g = h := group?_inj hG hgroup hh (GroupRef.named.inj hname)
    rw [← heq, hgroup] at hh
    exact Option.some.inj hh ▸ hP
  · intro hP
    exact ⟨group, mem_groups_of_group? hgroup, rfl, hP⟩

theorem explains_global {i : Invoice} {callers : List String} :
    RequiredReason.global.Explains i policy callers .global := by
  have hnot : ∀ P, ¬i.Declares .global P := by
    rintro P ⟨group, -, hname, -⟩
    cases hname
  constructor <;> simp [hnot]

/-- At the end of a run there is a reason for each group that is required, and for no other. -/
theorem explains_reason (hG : G.invoice.WellFormed) (hpasses : G.Passes policy chooser run)
    (hquiet : run.IsQuiet G) (hg : g ∈ G.groupIds) :
    (run.reason G policy g).Explains G.invoice policy
      ((run.manifest G policy).namesOf G.invoice (·.CallsFor (G.groupRef g))) (G.groupRef g) := by
  rcases eq_global_or_declared hg with rfl | ⟨group, hgroup⟩
  · exact explains_global
  have hreason := Run.reason_of_group? hG hpasses hquiet hgroup
  have hnamed : G.groupRef g ≠ .global := by simp [groupRef_of_group? hgroup]
  rw [hreason]
  by_cases hdeclared : group.required = true
  · rw [if_pos hdeclared]
    constructor <;> simp [declares_iff hG hgroup, hnamed, hdeclared]
  rw [if_neg hdeclared]
  by_cases hopted : group.name.text ∈ policy.optedIn
  · rw [if_pos hopted]
    constructor <;> simp [declares_iff hG hgroup, hnamed, hdeclared, hopted]
  rw [if_neg hopted]
  constructor
  case otherwise => exact fun _ => rfl
  all_goals
    rw [apply_ite (· = _)]
    simp [declares_iff hG hgroup, hnamed, hdeclared, hopted]

/-- At the end of a run without errors each report agrees with the labels. -/
theorem followsFrom_reportOn (hG : G.invoice.WellFormed)
    (hrun : G.settledRun policy chooser = .ok run)
    (hnone : run.errorsAtEnd G policy.anyOf = []) (hg : g ∈ G.groupIds) :
    (run.reportOn G policy g).FollowsFrom (run.manifest G policy) G.invoice policy := by
  obtain ⟨hpasses, hquiet⟩ := passes_of_settledRun hrun
  have hreason := Run.reason_ne_notRequired_iff hpasses.initiallyRequired_sub hg
  refine ⟨Run.selected_eq hG hg, List.contains_iff_mem.trans hreason.symm, fun hrequired => ?_,
    explains_reason hG hpasses hquiet hg⟩
  replace hrequired : run.required.contains g = true := hrequired
  have hfulfils := fulfils_of_errorsAtEnd hrun hnone (List.contains_iff_mem.1 hrequired)
  show G.isSatisfied policy.anyOf g (run.required.contains g) run.selection = true
  rw [hrequired, isSatisfied_iff]
  exact hfulfils

theorem nodup_groupRef (hG : G.invoice.WellFormed) : (G.groupIds.map G.groupRef).Nodup :=
  nodup_groupIds.map_on fun _ hg _ hh => groupRef_inj hG hg hh

/-- **Manifests are consistent.** When the graph of a valid invoice resolves, the manifest lists
labels of the invoice in order, with different names, and reports on each group once. A report
lists the members that the manifest lists; the group is required exactly when there is a reason,
and then it is satisfied. The reason is that the group is global, or declared required, or opted
into, or else the listed parcels that call for it: a required group has such a parcel, and a group
that is not required has none. -/
theorem isConsistent_of_resolve {i : Invoice} (hi : i.IsValid) (hG : Graph.build i = .ok G)
    (hm : (G.resolve policy chooser).result = .ok m) : m.IsConsistent i policy := by
  obtain ⟨rfl, -⟩ := build_eq_ok_iff.1 hG
  obtain ⟨run, hrun, hnone, rfl⟩ := resolve_eq_ok_iff.1 hm
  have hwf := hi.wellFormed
  have hlabels : (run.labels { invoice := i }).Sublist (i.parcels.map (·.label)) :=
    Run.labels_sublist
  refine ⟨hlabels, ?_, Run.map_group_report, ?_, fun r hr => ?_⟩
  · have hnames := hlabels.map (·.name)
    rw [List.map_map] at hnames
    exact hwf.parcelNames_nodup.sublist hnames
  · have hgroups := nodup_groupRef hwf
    rw [Run.manifest, List.map_map]
    exact hgroups
  · obtain ⟨g, hg, rfl⟩ := Run.mem_report_iff.1 hr
    exact followsFrom_reportOn hwf hrun hnone hg

end Graph

/-- In the worked scenario the server calls for a utility, and the first tool is one. -/
theorem Worked.isConsistent_manifest :
    invoice.IsValid ∧ Graph.build invoice = .ok graph ∧
      (graph.resolve policy .takeFirst).result = .ok manifest ∧
      manifest.IsConsistent invoice policy := by
  have hm : (graph.resolve policy .takeFirst).result = .ok manifest := by decide +kernel
  exact ⟨isValid, build_eq, hm, Graph.isConsistent_of_resolve isValid build_eq hm⟩

end Bindle
