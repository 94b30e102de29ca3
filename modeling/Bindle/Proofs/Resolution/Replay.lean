import Bindle.Proofs.Resolution.Reordering
import Bindle.Proofs.Sorted.Lookup

/-!
# Replaying a resolution

A manifest holds all that is needed to resolve the invoice again without asking anybody: for each
required group that accepts one parcel, the parcel that was selected. The order of declarations
decides in which order groups are decided and which of them are asked about, so another order may
make another run of it, step by step. But what the first run selected is a solution, a solution
stays one in another order, and the second run finds it.

* `Manifest.choices`: the choices recorded in a manifest; `choosesFrom_choices` says that they are
  those of the solution.
* `Run.Matches`: runs of two orders that end alike.
* `Manifest.Agrees`: what two manifests have in common, up to order; `Run.Matches.agrees`.
* `resolve_replay`: the replay succeeds and agrees with the first resolution.
-/

namespace Bindle

/-! ## Recorded choices -/

/-- The choice that a report records: the parcel for a required group that accepts one. -/
def GroupReport.choice? (r : GroupReport) : Option (String × String) :=
  match r.group, r.policy, r.required, r.selected with
  | .named name, .oneOf, true, [parcel] => some (name.text, parcel)
  | _, _, _, _ => none

/-- The choices that a manifest records, by group. -/
def Manifest.choices (m : Manifest) : ChoiceMap :=
  .ofList (m.report.filterMap (·.choice?))

theorem GroupReport.choice?_eq_some {r : GroupReport} {key value : String} :
    r.choice? = some (key, value) ↔ ∃ name, r.group = .named name ∧ name.text = key ∧
      r.policy = .oneOf ∧ r.required = true ∧ r.selected = [value] := by
  unfold choice?
  constructor
  · intro h
    split at h
    · rename_i name parcel hgroup hpolicy hrequired hselected
      obtain ⟨rfl, rfl⟩ := Prod.mk.inj (Option.some.inj h)
      exact ⟨name, hgroup, rfl, hpolicy, hrequired, hselected⟩
    · cases h
  · rintro ⟨name, hgroup, rfl, hpolicy, hrequired, hselected⟩
    rw [hgroup, hpolicy, hrequired, hselected]

/-- What is recorded for a group is found under its name, when no other report is on that name. -/
theorem Manifest.get?_choices {m : Manifest} {r : GroupReport} (hr : r ∈ m.report)
    (hunique : ∀ s ∈ m.report, s.group = r.group → s = r) {key value : String}
    (hchoice : r.choice? = some (key, value)) : m.choices.get? key = some value := by
  refine StringMap.get?_ofList (List.mem_filterMap.2 ⟨r, hr, hchoice⟩) ?_
  rintro ⟨key', value'⟩ hmem rfl
  obtain ⟨s, hs, hchoice'⟩ := List.mem_filterMap.1 hmem
  obtain ⟨name, hgroup, hname, -⟩ := GroupReport.choice?_eq_some.1 hchoice
  obtain ⟨name', hgroup', hname', -⟩ := GroupReport.choice?_eq_some.1 hchoice'
  have hsame : name' = name := GroupName.text_inj.1 (hname'.trans hname.symm)
  rw [hunique s hs (by rw [hgroup', hsame, hgroup]), hchoice] at hchoice'
  cases hchoice'
  rfl

namespace Run

variable {G : Graph} {policy : Policy} {run : Run} {g : GroupId}

/-- The choices that the manifest records are those of the selection. -/
theorem get?_choices_manifest (hG : G.invoice.WellFormed) (hg : g ∈ run.required)
    (hpolicy : G.policy g = .oneOf) {p : ParcelId} (hp : p ∈ G.members g)
    (hsel : p ∈ run.selection) (hunique : ∃! q, q ∈ G.members g ∧ q ∈ run.selection) :
    (run.manifest G policy).choices.get? (G.groupName g) = some (G.parcelName p) := by
  have hid : g ∈ G.groupIds := Graph.mem_groupIds_of_holds (Graph.mem_members.1 hp)
  obtain ⟨group, hgroup, -⟩ := Graph.exists_group?_of_oneOf hpolicy
  have hreport : run.reportOn G policy g ∈ (run.manifest G policy).report :=
    mem_report_iff.2 ⟨g, hid, rfl⟩
  refine Manifest.get?_choices hreport (fun s hs => eq_of_mem_report hG hreport hs) ?_
  refine GroupReport.choice?_eq_some.2 ⟨group.name, Graph.groupRef_of_group? hgroup, ?_, hpolicy,
    List.contains_iff_mem.2 hg, ?_⟩
  · exact (Graph.groupName_of_groupRef (Graph.groupRef_of_group? hgroup)).symm
  · show G.parcelNames (G.selectedMembers g run.selection) = [G.parcelName p]
    rw [Graph.selectedMembers_eq_singleton hp hsel hunique]
    rfl

end Run

/-- The recorded choices are those of the solution in the other order. -/
theorem Graph.choosesFrom_choices {G H : Graph} {policy : Policy} {chooser : Chooser} {run : Run}
    (hr : G.invoice.IsReordering H.invoice) (hG : G.invoice.WellFormed)
    (hH : H.invoice.WellFormed) (hrun : G.settledRun policy chooser = .ok run)
    (hnone : run.errorsAtEnd G policy.anyOf = []) :
    H.ChoosesFrom policy (counterpart G H {p | p ∈ run.selection})
      (run.manifest G policy).choices := by
  obtain ⟨hpasses, hquiet⟩ := passes_of_settledRun hrun
  have hS := isSolution_of_settledRun hrun hnone
  rintro h hdemands hpolicy q hq ⟨p, hsel, hp⟩
  obtain ⟨g, hg⟩ := exists_sameGroup hr.symm hdemands.mem_groupIds
  have hdemands' := (hg.symm.demands_iff hr hG hH (sameSet_counterpart hG)).2 hdemands
  have hpolicy' : G.policy g = .oneOf := hg.policy.symm.trans hpolicy
  have hmem : p ∈ G.members g := (hg.symm.mem_members_iff hp).2 hq
  have hrequired := (hpasses.mem_required_iff hquiet).2 hdemands'
  have hrecorded : (run.manifest G policy).choices.get? (G.groupName g) = some (G.parcelName p) :=
    Run.get?_choices_manifest hG hrequired hpolicy' hmem hsel (hS.existsUnique hdemands' hpolicy')
  rw [groupName, hg.groupRef, ← groupName, ← hp.parcelName]
  exact hrecorded

/-! ## Manifests that agree -/

/-- The reasons are the same; parcels that require a group are compared as a set. -/
def RequiredReason.Agrees : RequiredReason → RequiredReason → Prop
  | .requiredBy ps, .requiredBy qs => ∀ name, name ∈ ps ↔ name ∈ qs
  | r, s => r = s

/-- The reports say the same of a group. -/
structure GroupReport.Agrees (r s : GroupReport) : Prop where
  group : r.group = s.group
  policy : r.policy = s.policy
  required : r.required = s.required
  reason : r.reason.Agrees s.reason
  satisfied : r.satisfied = s.satisfied
  selected : ∀ name, name ∈ r.selected ↔ name ∈ s.selected

/-- The manifests list the same labels, and say the same of each group. -/
structure Manifest.Agrees (m n : Manifest) : Prop where
  invoice : m.invoice = n.invoice
  parcels : ∀ label, label ∈ m.parcels ↔ label ∈ n.parcels
  groups : (m.report.map (·.group)).Perm (n.report.map (·.group))
  reports : ∀ r ∈ m.report, ∀ s ∈ n.report, r.group = s.group → r.Agrees s

namespace Run

open Bindle.Graph (SameGroup SameSet exists_sameParcel)

variable {G H : Graph} {policy : Policy} {run next : Run} {g h : GroupId}

/-- The runs, each of its graph, end with the same groups required and parcels selected. -/
structure Matches (G H : Graph) (run next : Run) : Prop where
  tidy : run.Tidy G
  tidy' : next.Tidy H
  required : ∀ g h, SameGroup G H g h → (g ∈ run.required ↔ h ∈ next.required)
  selection : SameSet G H {p | p ∈ run.selection} {q | q ∈ next.selection}

theorem Matches.symm (hm : Matches G H run next) : Matches H G next run :=
  ⟨hm.tidy', hm.tidy, fun _ _ hg => (hm.required _ _ hg.symm).symm, hm.selection.symm⟩

theorem Matches.contains_required (hm : Matches G H run next) (hg : SameGroup G H g h) :
    run.required.contains g = next.required.contains h :=
  contains_congr (hm.required g h hg)

theorem Matches.mem_labels (hr : G.invoice.IsReordering H.invoice) (hm : Matches G H run next)
    {label : Label} (hlabel : label ∈ run.labels G) : label ∈ next.labels H := by
  obtain ⟨p, hp, parcel, hparcel, rfl⟩ := Run.mem_labels.1 hlabel
  obtain ⟨q, parcel', hleft, hright⟩ := exists_sameParcel hr (hm.tidy.selection p hp)
  rw [hparcel] at hleft
  cases hleft
  exact Run.mem_labels.2 ⟨q, (hm.selection p q ⟨parcel, hparcel, hright⟩).1 hp, parcel, hright, rfl⟩

/-- Selected parcels with a property that does not depend on the order have the same names. -/
theorem Matches.exists_name_iff (hr : G.invoice.IsReordering H.invoice)
    (hm : Matches G H run next) {P Q : ParcelId → Prop}
    (hPQ : ∀ p q, Graph.SameParcel G H p q → (P p ↔ Q q)) {name : String} :
    (∃ p, (P p ∧ p ∈ run.selection) ∧ G.parcelName p = name) ↔
      ∃ q, (Q q ∧ q ∈ next.selection) ∧ H.parcelName q = name := by
  have hsame : SameSet G H {p | P p ∧ p ∈ run.selection} {q | Q q ∧ q ∈ next.selection} :=
    fun p q hp => and_congr (hPQ p q hp) (hm.selection p q hp)
  exact hsame.exists_name_iff hr (fun p hp => hm.tidy.selection p hp.2)
    fun q hq => hm.tidy'.selection q hq.2

theorem Matches.selected (hr : G.invoice.IsReordering H.invoice) (hm : Matches G H run next)
    (hg : SameGroup G H g h) {name : String} :
    name ∈ G.parcelNames (G.selectedMembers g run.selection) ↔
      name ∈ H.parcelNames (H.selectedMembers h next.selection) := by
  simp only [Graph.parcelNames, List.mem_map, Graph.mem_selectedMembers]
  exact hm.exists_name_iff hr fun p q hp => hg.mem_members_iff hp

theorem Matches.reason (hr : G.invoice.IsReordering H.invoice) (hG : G.invoice.WellFormed)
    (hH : H.invoice.WellFormed) (hm : Matches G H run next) (hg : SameGroup G H g h) :
    (run.reason G policy g).Agrees (next.reason H policy h) := by
  have hglobal : g.isGlobal = h.isGlobal := by
    rw [Bool.eq_iff_iff, Graph.isGlobal_iff, Graph.isGlobal_iff]
    exact hg.eq_global_iff
  have hopted : (G.optedIn policy).contains g = (H.optedIn policy).contains h :=
    contains_congr (hg.mem_optedIn_iff hG hH)
  unfold Run.reason
  rw [hglobal, hg.isRootRequired, hopted, hm.contains_required hg]
  split
  · rfl
  · split
    · rfl
    · split
      · rfl
      · split
        · intro name
          simp only [Graph.parcelNames, List.mem_map, List.mem_filter, List.contains_iff_mem,
            Graph.mem_requiredBy]
          exact hm.exists_name_iff hr fun p q hp => by rw [hg.needs hp]
        · rfl

theorem Matches.isSatisfied (hr : G.invoice.IsReordering H.invoice) (hG : G.invoice.WellFormed)
    (hH : H.invoice.WellFormed) (hm : Matches G H run next) (hg : SameGroup G H g h)
    (reading : AnyOfReading) (required : Bool) :
    G.isSatisfied reading g required run.selection =
      H.isSatisfied reading h required next.selection := by
  cases required with
  | true =>
    rw [Bool.eq_iff_iff, Graph.isSatisfied_iff, Graph.isSatisfied_iff]
    exact hg.fulfils_iff hr hG hH hm.selection
  | false =>
    rw [Graph.isSatisfied_false, Graph.isSatisfied_false, Bool.eq_iff_iff, Graph.isSatisfied_iff,
      Graph.isSatisfied_iff]
    exact hg.fulfils_iff hr hG hH hm.selection

theorem Matches.reportOn (hr : G.invoice.IsReordering H.invoice) (hG : G.invoice.WellFormed)
    (hH : H.invoice.WellFormed) (hm : Matches G H run next) (hg : SameGroup G H g h) :
    (run.reportOn G policy g).Agrees (next.reportOn H policy h) where
  group := hg.groupRef
  policy := hg.policy
  required := hm.contains_required hg
  reason := hm.reason hr hG hH hg
  satisfied := by
    show G.isSatisfied _ g (run.required.contains g) _ = H.isSatisfied _ h _ _
    rw [hm.contains_required hg]
    exact hm.isSatisfied hr hG hH hg _ _
  selected _ := hm.selected hr hg

/-- Runs that end alike have manifests that agree. -/
theorem Matches.agrees (hr : G.invoice.IsReordering H.invoice) (hG : G.invoice.WellFormed)
    (hH : H.invoice.WellFormed) (hm : Matches G H run next) :
    (run.manifest G policy).Agrees (next.manifest H policy) where
  invoice := hr.name
  parcels label := ⟨hm.mem_labels hr, hm.symm.mem_labels hr.symm⟩
  groups := by
    rw [map_group_report, map_group_report]
    exact (hr.groups.map _).cons _
  reports := by
    intro r hrep s hsrep hgroup
    obtain ⟨g, hg, rfl⟩ := mem_report_iff.1 hrep
    obtain ⟨h, hh, rfl⟩ := mem_report_iff.1 hsrep
    exact hm.reportOn hr hG hH (SameGroup.of_groupRef_eq hr hH hg hh hgroup)

/-- Runs of one graph that end alike have the same manifest. -/
theorem Matches.manifest_eq (hm : Matches G G run next) :
    next.manifest G policy = run.manifest G policy := by
  refine manifest_congr (fun g => ?_) fun p => ?_
  · by_cases hg : g ∈ G.groupIds
    · exact (hm.required g g ⟨hg, hg, rfl⟩).symm
    · exact iff_of_false (fun h => hg (hm.tidy'.required g h)) fun h => hg (hm.tidy.required g h)
  · by_cases hp : p ∈ G.parcelIds
    · obtain ⟨parcel, hparcel⟩ := Graph.mem_parcelIds_iff.1 hp
      exact (hm.selection p p ⟨parcel, hparcel, hparcel⟩).symm
    · exact iff_of_false (fun h => hp (hm.tidy'.selection p h)) fun h => hp (hm.tidy.selection p h)

end Run

/-! ## Replays -/

/-- The replay of a run that ended without errors ends like it. -/
theorem Graph.settledRun_replay {G H : Graph} {policy : Policy} {chooser : Chooser} {run : Run}
    (hr : G.invoice.IsReordering H.invoice) (hG : G.invoice.WellFormed)
    (hH : H.invoice.WellFormed) (hrun : G.settledRun policy chooser = .ok run)
    (hnone : run.errorsAtEnd G policy.anyOf = []) :
    ∃ next, H.settledRun policy (run.manifest G policy).choices.chooser = .ok next ∧
      next.errorsAtEnd H policy.anyOf = [] ∧ Run.Matches G H run next := by
  obtain ⟨hacyclic, hopt⟩ := of_settledRun_eq_ok hrun
  obtain ⟨hpasses, hquiet⟩ := passes_of_settledRun hrun
  have hopt' : H.DeclaresOptIns policy := by
    intro name hname
    obtain ⟨group, hgroup, htext⟩ := hopt name hname
    exact ⟨group, hr.groups.subset hgroup, htext⟩
  have hT : H.IsSolution policy (counterpart G H {p | p ∈ run.selection}) :=
    (isSolution_of_settledRun hrun hnone).of_isReordering hr hG hH
  obtain ⟨next, hnext, hselection, hnone'⟩ := settledRun_of_isSolution hH
    (hacyclic.of_isReordering hr) hopt' hT (choosesFrom_choices hr hG hH hrun hnone)
  obtain ⟨hpasses', hquiet'⟩ := passes_of_settledRun hnext
  have hsame : SameSet G H {p | p ∈ run.selection} {q | q ∈ next.selection} := by
    intro p q hp
    exact (sameSet_counterpart hG p q hp).trans (hselection q).symm
  refine ⟨next, hnext, hnone', hpasses.tidy, hpasses'.tidy, fun g h hg => ?_, hsame⟩
  rw [hpasses.mem_required_iff hquiet, hpasses'.mem_required_iff hquiet']
  exact hg.demands_iff hr hG hH hsame

/-- **Replays agree.** If an invoice resolves, whoever answered the questions, then with the
choices of the manifest every reordering of it resolves as well, and the manifests agree. The
replay of the invoice itself gives back the manifest. -/
theorem Invoice.resolve_replay {i j : Invoice} (hi : i.IsValid) (hj : j.IsValid)
    (hr : i.IsReordering j) {policy : Policy} {chooser : Chooser} {allowYanked : Bool}
    {m : Manifest} (h : (i.resolve policy chooser allowYanked).result = .ok m) :
    ∃ n, (j.resolve policy m.choices.chooser allowYanked).result = .ok n ∧ m.Agrees n ∧
      (j = i → n = m) := by
  obtain ⟨hallowed, hacyclic, hresult⟩ := Invoice.resolve_eq_ok_iff.1 h
  obtain ⟨run, hrun, hnone, rfl⟩ := Graph.resolve_eq_ok_iff.1 hresult
  obtain ⟨next, hnext, hnone', hm⟩ :
      ∃ next, ({ invoice := j } : Graph).settledRun policy _ = _ ∧ _ :=
    Graph.settledRun_replay hr hi.wellFormed hj.wellFormed hrun hnone
  have hallowed' : ¬(j.yanked ∧ ¬allowYanked) := hr.yanked ▸ hallowed
  have hresult' := Graph.resolve_eq_ok_iff.2 ⟨next, hnext, hnone', rfl⟩
  refine ⟨_, Invoice.resolve_eq_ok_iff.2 ⟨hallowed', hacyclic.of_isReordering hr, hresult'⟩,
    hm.agrees hr hi.wellFormed hj.wellFormed, ?_⟩
  rintro rfl
  exact hm.manifest_eq

/-- The worked scenario with its groups and its parcels in reverse order. -/
def Worked.reversed : Invoice :=
  { Worked.invoice with
    groups := Worked.invoice.groups.reverse
    parcels := Worked.invoice.parcels.reverse }

theorem Worked.isValid_reversed : Worked.reversed.IsValid :=
  ⟨Worked.reversed.toDraft, by decide +kernel⟩

theorem Worked.isReordering_reversed : Worked.invoice.IsReordering Worked.reversed :=
  ⟨rfl, rfl, rfl, rfl, (List.reverse_perm _).symm, (List.reverse_perm _).symm⟩

theorem Worked.resolve_reversed :
    ∃ n, (Worked.reversed.resolve Worked.policy Worked.manifest.choices.chooser false).result =
        .ok n ∧ Worked.manifest.Agrees n := by
  obtain ⟨n, hn, hagrees, -⟩ := Invoice.resolve_replay Worked.isValid Worked.isValid_reversed
    Worked.isReordering_reversed Worked.resolve_eq
  exact ⟨n, hn, hagrees⟩

end Bindle
