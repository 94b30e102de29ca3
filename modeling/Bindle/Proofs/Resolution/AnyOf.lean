import Bindle.Proofs.Resolution.Readings
import Bindle.Proofs.Resolution.Relocation

/-!
# Membership of `anyOf` groups

A parcel may list any number of groups with the policy `anyOf`, and no run takes notice. Such a
group pulls in nothing, is never decided and is closed to no parcel; it becomes required and makes
nothing else required. So two invoices that differ only in which of these groups their parcels list
are resolved by the same run, state by state.

Only the final check looks at the members of such a group, and only when one of them has to be
selected. Under the weaker reading nothing is left that could differ. Under the stricter one the
only errors that may differ say that a group of this kind is not satisfied.

* `Invoice.IsVariant`: the invoices differ at most in the `anyOf` groups that parcels list.
* `Invoice.IsVariant.relocates`: in both graphs the same parcels stand at the same places.
* `ResolutionError.isShortfall`: the errors that may differ.
* `Run.errorsAtEnd_optional_of_isVariant`, `Run.filter_errorsAtEnd_of_isVariant`: the errors at the
  end.
* `Graph.resolvesAlike_of_isVariant`: the runs and the outcomes compared.
-/

namespace Bindle

/-! ## Invoices that differ in `anyOf` groups -/

/-- The parcels are declared alike, apart from the listed groups with the policy `anyOf`. -/
structure Parcel.IsVariant (groups : List Group) (p q : Parcel) : Prop where
  label : p.label = q.label
  requires : p.requires = q.requires
  memberOf : p.memberOf = none ↔ q.memberOf = none
  lists : ∀ group ∈ groups, group.policy ≠ .anyOf → (p.Lists group.name ↔ q.Lists group.name)

theorem Parcel.isVariant_iff {groups : List Group} {p q : Parcel} :
    p.IsVariant groups q ↔ p.label = q.label ∧ p.requires = q.requires ∧
      (p.memberOf = none ↔ q.memberOf = none) ∧ ∀ group ∈ groups, group.policy ≠ .anyOf →
        (p.isMemberOf group.name.text = true ↔ q.isMemberOf group.name.text = true) := by
  simp only [Parcel.isMemberOf_iff]
  exact ⟨fun h => ⟨h.label, h.requires, h.memberOf, h.lists⟩,
    fun ⟨hlabel, hrequires, hmember, hlists⟩ => ⟨hlabel, hrequires, hmember, hlists⟩⟩

instance {groups : List Group} {p q : Parcel} : Decidable (p.IsVariant groups q) :=
  decidable_of_iff' _ Parcel.isVariant_iff

/-- The invoices differ at most in the groups with the policy `anyOf` that their parcels list. -/
structure Invoice.IsVariant (i j : Invoice) : Prop where
  bindleVersion : i.bindleVersion = j.bindleVersion
  bindle : i.bindle = j.bindle
  annotations : i.annotations = j.annotations
  groups : i.groups = j.groups
  parcels : List.Forall₂ (Parcel.IsVariant i.groups) i.parcels j.parcels
  yanked : i.yanked = j.yanked

variable {i j : Invoice} {G H : Graph} {g : GroupId} {p : ParcelId} {a b : Parcel}

theorem Invoice.IsVariant.parcel? (h : G.invoice.IsVariant H.invoice) (p : ParcelId) :
    (∃ a b, G.parcel? p = some a ∧ H.parcel? p = some b ∧ a.IsVariant G.invoice.groups b) ∨
      G.parcel? p = none ∧ H.parcel? p = none := by
  obtain ⟨hlen, hvariant⟩ := List.forall₂_iff_get.1 h.parcels
  unfold Graph.parcel?
  by_cases hp : p.index < G.invoice.parcels.length
  · have hp' : p.index < H.invoice.parcels.length := hlen ▸ hp
    exact .inl ⟨_, _, List.getElem?_eq_getElem hp, List.getElem?_eq_getElem hp',
      hvariant _ hp hp'⟩
  · rw [List.getElem?_eq_none_iff, List.getElem?_eq_none_iff, ← hlen, and_self]
    exact .inr (Nat.le_of_not_lt hp)

theorem Parcel.IsVariant.contains_eq (hgroups : G.invoice.groups = H.invoice.groups)
    (h : a.IsVariant G.invoice.groups b) (hpolicy : G.policy g ≠ .anyOf) :
    H.contains g b = G.contains g a := by
  obtain ⟨index⟩ := g
  cases index with
  | zero =>
    show b.isGlobalMember = a.isGlobalMember
    rw [Bool.eq_iff_iff, Parcel.isGlobalMember, Parcel.isGlobalMember, Option.isNone_iff_eq_none,
      Option.isNone_iff_eq_none, h.memberOf]
  | succ n =>
    show (H.group? ⟨n + 1⟩).any (fun group => b.isMemberOf group.name.text) =
      (G.group? ⟨n + 1⟩).any fun group => a.isMemberOf group.name.text
    rw [← Graph.group?_congr hgroups]
    cases hgroup : G.group? ⟨n + 1⟩ with
    | none => rfl
    | some group =>
      rw [Graph.policy_of_group? hgroup] at hpolicy
      rw [Option.any_some, Option.any_some, Bool.eq_iff_iff, Parcel.isMemberOf_iff,
        Parcel.isMemberOf_iff, h.lists group (Graph.mem_groups_of_group? hgroup) hpolicy]

theorem Invoice.IsVariant.policy (h : G.invoice.IsVariant H.invoice) : H.policy g = G.policy g :=
  congrFun (Graph.policy_congr (Graph.shapes_congr h.groups.symm)) g

/-- The same parcels stand at the same places, as far as other groups matter. -/
theorem Invoice.IsVariant.relocates (h : G.invoice.IsVariant H.invoice) :
    Graph.Relocates G H id fun g => G.policy g ≠ .anyOf where
  groups := h.groups.symm
  increasing _ _ hlt := hlt
  label p := by
    rcases h.parcel? p with ⟨a, b, ha, hb, hab⟩ | ⟨ha, hb⟩
    · rw [id, ha, hb, Option.map_some, Option.map_some, hab.label]
    · rw [id, ha, hb, Option.map_none]
  needs p g := by
    rw [id, Graph.needs, Graph.needs]
    rcases h.parcel? p with ⟨a, b, ha, hb, hab⟩ | ⟨ha, hb⟩
    · rw [ha, hb, Option.any_some, Option.any_some, Graph.isRequired, Graph.isRequired,
        Graph.group?_congr h.groups, hab.requires]
    · rw [ha, hb, Option.any_none, Option.any_none]
  holds g p hpolicy := by
    rw [id, Graph.holds, Graph.holds]
    rcases h.parcel? p with ⟨a, b, ha, hb, hab⟩ | ⟨ha, hb⟩
    · rw [ha, hb, Option.any_some, Option.any_some, hab.contains_eq h.groups hpolicy]
    · rw [ha, hb, Option.any_none, Option.any_none]
  placed _ p _ _ := ⟨p, rfl⟩

theorem Exchange.relocate_id : (Exchange.relocate id : Exchange → Exchange) = id := by
  have hcandidates : (Candidate.relocate id : Candidate → Candidate) = id := rfl
  funext e
  rw [Exchange.relocate, Question.relocate, hcandidates, List.map_id]
  rfl

theorem Chooser.repeats_id (chooser : Chooser) : chooser.Repeats id chooser := by
  intro earlier q
  rw [Exchange.relocate_id, List.map_id]
  exact congrArg (fun e : Exchange => chooser earlier e.question)
    (congrFun Exchange.relocate_id ⟨q, .skip⟩)

/-! ## The errors that may differ -/

/-- Whether the error says that one of the declared groups with the policy `anyOf` is not
satisfied. -/
def ResolutionError.isShortfall (groups : List Group) : ResolutionError → Bool
  | .unsatisfiable name => groups.any fun group => group.policy == .anyOf && group.name.text == name
  | _ => false

namespace Run

variable {chooser : Chooser} {run : Run} {reading : AnyOfReading}

/-- All that can be wrong with a group of this kind is that it is not satisfied. -/
theorem filter_errorAtEnd?_of_anyOf (hpolicy : G.policy g = .anyOf) :
    (run.errorAtEnd? G reading g).filter (!·.isShortfall G.invoice.groups) = none := by
  have hne : G.policy g ≠ .allOf := by simp [hpolicy]
  obtain ⟨group, hgroup, heq⟩ := Graph.exists_group?_of_ne_allOf hne
  have hname : G.groupName g = group.name.text :=
    Graph.groupName_of_groupRef (Graph.groupRef_of_group? hgroup)
  have hshortfall : (ResolutionError.unsatisfiable (G.groupName g)).isShortfall
      G.invoice.groups = true := by
    refine List.any_eq_true.2 ⟨group, Graph.mem_groups_of_group? hgroup, ?_⟩
    simp [heq, hpolicy, hname]
  rw [errorAtEnd?]
  cases hjudged : G.evaluate reading g true run.selection with
  | satisfied => rfl
  | unsatisfied =>
    dsimp only
    split
    · rfl
    · simp [hshortfall]
  | overSatisfied =>
    rw [(Graph.evaluate_eq_overSatisfied_iff.1 hjudged).1] at hpolicy
    cases hpolicy

/-! ## Comparing the errors -/

theorem relocate_id (run : Run) : run.relocate id = run := by
  rw [relocate, Exchange.relocate_id, List.map_id, List.map_id]

variable (hsame : G.invoice.IsVariant H.invoice) (h : run.IsRecorded G chooser)

include hsame

theorem errorAtEnd?_of_isVariant (hpolicy : G.policy g ≠ .anyOf) :
    run.errorAtEnd? H reading g = run.errorAtEnd? G reading g := by
  have heq : (run.relocate id).errorAtEnd? H reading g = run.errorAtEnd? G reading g :=
    errorAtEnd?_relocate hsame.relocates hpolicy
  rwa [relocate_id] at heq

theorem labels_of_isVariant : run.labels H = run.labels G := by
  have heq : (run.relocate id).labels H = run.labels G := labels_relocate hsame.relocates
  rwa [relocate_id] at heq

include h

/-- The same errors of decisions stand: no group of this kind is ever decided. -/
theorem standingErrors_of_isVariant :
    run.standingErrors H reading = run.standingErrors G reading := by
  have heq : (run.relocate id).standingErrors H reading = run.standingErrors G reading :=
    standingErrors_relocate hsame.relocates h.policy_ne_anyOf
  rwa [relocate_id] at heq

/-- Under the weaker reading all errors are the same. -/
theorem errorsAtEnd_optional_of_isVariant :
    run.errorsAtEnd H .optional = run.errorsAtEnd G .optional := by
  rw [errorsAtEnd, errorsAtEnd, standingErrors_of_isVariant hsame h,
    Graph.groupIds_congr (Graph.shapes_congr hsame.groups)]
  refine congrArg _ (List.filterMap_congr fun g _ => ?_)
  by_cases hpolicy : G.policy g = .anyOf
  · rw [errorAtEnd?_optional_of_anyOf hpolicy,
      errorAtEnd?_optional_of_anyOf (hsame.policy.trans hpolicy)]
  · exact errorAtEnd?_of_isVariant hsame hpolicy

/-- Under either reading all errors are the same, apart from those that may differ. -/
theorem filter_errorsAtEnd_of_isVariant :
    (run.errorsAtEnd H reading).filter (!·.isShortfall H.invoice.groups) =
      (run.errorsAtEnd G reading).filter (!·.isShortfall G.invoice.groups) := by
  rw [errorsAtEnd, errorsAtEnd, standingErrors_of_isVariant hsame h, List.filter_append,
    List.filter_append, Graph.groupIds_congr (Graph.shapes_congr hsame.groups),
    List.filter_filterMap, List.filter_filterMap]
  refine congrArg₂ _ (by rw [hsame.groups]) (List.filterMap_congr fun g _ => ?_)
  by_cases hpolicy : G.policy g = .anyOf
  · rw [filter_errorAtEnd?_of_anyOf hpolicy,
      filter_errorAtEnd?_of_anyOf (hsame.policy.trans hpolicy)]
  · rw [errorAtEnd?_of_isVariant hsame hpolicy, hsame.groups]

end Run

/-! ## Outcomes -/

namespace Graph

variable {policy : Policy} {chooser : Chooser}

/-- How the resolutions of two graphs compare under one policy and with one chooser. -/
structure ResolvesAlike (G H : Graph) (policy : Policy) (chooser : Chooser) : Prop where
  /-- The same parcels are selected and the same groups are required, whatever the outcome is. -/
  settledRun : G.settledRun policy chooser = H.settledRun policy chooser
  /-- The same questions are asked, with the same candidates and in the same order. -/
  exchanges : (G.resolve policy chooser).exchanges = (H.resolve policy chooser).exchanges
  /-- Under the weaker reading both succeed with the same parcels or fail with the same errors. -/
  optional : policy.anyOf = .optional →
    (G.resolve policy chooser).result.map (·.parcels) =
      (H.resolve policy chooser).result.map (·.parcels)
  /-- Under the stricter reading too the errors are the same, apart from those that say that a
  group with the policy `anyOf` is not satisfied. -/
  errors : (G.resolve policy chooser).errors.filter (!·.isShortfall G.invoice.groups) =
    (H.resolve policy chooser).errors.filter (!·.isShortfall H.invoice.groups)

/-- The same run settles in both graphs. -/
theorem settledRun_of_isVariant (hG : G.IsAcyclic) (hH : H.IsAcyclic)
    (hsame : G.invoice.IsVariant H.invoice) :
    H.settledRun policy chooser = G.settledRun policy chooser := by
  have hcycle : H.cycleNames = G.cycleNames := by
    rw [cycleNames_eq_none_iff.2 hG, cycleNames_eq_none_iff.2 hH]
  rw [hsame.relocates.settledRun (fun _ hpolicy => hpolicy) chooser.repeats_id hcycle]
  cases G.settledRun policy chooser with
  | error errors => rfl
  | ok run => exact congrArg _ run.relocate_id

/-- Under the weaker reading a run ends with the same parcels or the same errors. -/
theorem map_parcels_conclude {run : Run} (hsame : G.invoice.IsVariant H.invoice)
    (h : run.IsRecorded G chooser) (hreading : policy.anyOf = .optional) :
    (H.conclude policy run).map (·.parcels) = (G.conclude policy run).map (·.parcels) := by
  rw [conclude, conclude, hreading, Run.errorsAtEnd_optional_of_isVariant hsame h]
  cases run.errorsAtEnd G .optional with
  | nil => exact congrArg Except.ok (Run.labels_of_isVariant hsame)
  | cons first rest => rfl

/-- **Membership of `anyOf` groups drives no selection.** When two valid invoices differ only in
which groups with this policy their parcels list, the same run settles in both graphs, whatever the
caller opts into and whatever is answered. Under the weaker reading the outcomes are the same; under
the stricter one they have the same errors, but for those that say that a group of this kind is not
satisfied. -/
theorem resolvesAlike_of_isVariant {i j : Invoice} (hi : i.IsValid) (hG : Graph.build i = .ok G)
    (hH : Graph.build j = .ok H) (hsame : i.IsVariant j) (policy : Policy) (chooser : Chooser) :
    ResolvesAlike G H policy chooser := by
  have hwf := wellFormed_of_build hi hG
  obtain ⟨hinvoice, hacyclic⟩ := build_eq_ok_iff.1 hG
  obtain ⟨hinvoice', hacyclic'⟩ := build_eq_ok_iff.1 hH
  have hvariant : G.invoice.IsVariant H.invoice := by
    rw [hinvoice, hinvoice']
    exact hsame
  have hrun : H.settledRun policy chooser = G.settledRun policy chooser :=
    settledRun_of_isVariant hacyclic hacyclic' hvariant
  cases hsettled : G.settledRun policy chooser with
  | error errors =>
    have hresolve : H.resolve policy chooser = G.resolve policy chooser := by
      rw [resolve, resolve, hrun, hsettled]
    refine ⟨hrun.symm, ?_, fun _ => ?_, ?_⟩
    · rw [hresolve]
    · rw [hresolve]
    · rw [hresolve, hvariant.groups]
  | ok run =>
    rw [hsettled] at hrun
    have hrecorded := (passes_of_settledRun hsettled).1.isRecorded hwf
    refine ⟨hsettled.trans hrun.symm, ?_, fun hreading => ?_, ?_⟩
    · rw [exchanges_resolve hsettled, exchanges_resolve hrun]
    · rw [resolve, resolve, hsettled, hrun]
      exact (map_parcels_conclude hvariant hrecorded hreading).symm
    · rw [errors_resolve hsettled, errors_resolve hrun]
      exact (Run.filter_errorsAtEnd_of_isVariant hvariant hrecorded).symm

end Graph

namespace Worked

/-- The worked scenario with the second tool as a utility instead of the first. -/
def swapped : Invoice :=
  { invoice with
    parcels := [
      ⟨label "daemon", some [server], [.named utility]⟩,
      ⟨label "first", some [cli], []⟩,
      ⟨label "second", some [utility, cli], []⟩,
      ⟨label "third", some [utility], []⟩,
      ⟨label "readme", none, []⟩,
      ⟨label "hidden", some [], []⟩] }

theorem isVariant_swapped : invoice.IsVariant swapped :=
  ⟨rfl, rfl, rfl, rfl, by decide +kernel, rfl⟩

/-- The second tool is taken in both, but it is the utility that the server needs in one only. -/
theorem resolvesAlike_swapped :
    invoice.IsVariant swapped ∧
      (graph.resolve policy .takeLast).errors = [.unsatisfiable "utility"] ∧
      (Graph.resolve ⟨swapped⟩ policy .takeLast).errors = [] ∧
      graph.ResolvesAlike ⟨swapped⟩ policy .takeLast := by
  have hbuild : Graph.build swapped = .ok ⟨swapped⟩ := by decide +kernel
  exact ⟨isVariant_swapped, by decide +kernel, by decide +kernel,
    Graph.resolvesAlike_of_isVariant isValid build_eq hbuild isVariant_swapped policy .takeLast⟩

end Worked

end Bindle
