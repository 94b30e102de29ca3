import Bindle.Proofs.Graph.Flags
import Bindle.Proofs.Resolution.Report
import Bindle.Proofs.Resolution.Verdict
import Bindle.Proofs.Sorted.Lookup

/-!
# Opting in and declaring required

A group becomes required at the outset in two ways: the invoice declares it required, or the caller
opts into it. Both ways lead to the same run. A run looks at its graph, which is the same to look at
whether or not the group is declared required; and it starts with the same groups, because looking
up the name of a declared group finds that group and is never refused. Only the reason that the
manifest gives for the group tells which way it was.

* `Policy.optInto`: the policy with one more group to opt into.
* `Graph.IsAlike.pass`, `Graph.IsAlike.settle`: runs in graphs that look alike.
* `Graph.settledRun_optInto`: the run is the same.
* `Manifest.withReason`, `Run.manifest_requiring`: the manifests differ in one reason.
* `Invoice.resolve_optInto`: so do the outcomes.
-/

namespace Bindle

/-- The policy that opts into one more group. -/
def Policy.optInto (policy : Policy) (name : String) : Policy :=
  { policy with optedIn := policy.optedIn.insert name }

/-! ## Runs in graphs that look alike -/

namespace Graph.IsAlike

variable {G H : Graph} (h : G.IsAlike H)

include h

theorem question : G.question = H.question := by
  funext name ps
  rw [Graph.question, Graph.question, h.parcel?]

theorem pulled : Run.pulled G = Run.pulled H := by
  funext run
  unfold Run.pulled Run.isPulled
  rw [h.parcelIds, h.policy, h.holds]

theorem isTaken : Run.isTaken G = Run.isTaken H := by
  funext run g
  rw [Run.isTaken, Run.isTaken, h.members]

theorem conflicts : Run.conflicts G = Run.conflicts H := by
  funext run g p
  unfold Run.conflicts Run.isClosed
  rw [h.groupsOf, h.policy, h.isTaken]

theorem viable : Run.viable G = Run.viable H := by
  funext run g
  unfold Run.viable
  rw [h.members, h.conflicts]

theorem ask : Run.ask G = Run.ask H := by
  funext chooser run g ps
  unfold Run.ask
  rcases Graph.group?_cases h.shapes g with ⟨ha, hb⟩ | ⟨a, b, ha, hb, hname, -⟩
  · rw [ha, hb]
  · rw [ha, hb]
    dsimp only
    rw [hname, h.question]

theorem decide : Run.decide G = Run.decide H := by
  funext chooser run g
  unfold Run.decide
  rw [h.isTaken, h.viable, h.groupName, h.ask]

theorem decideAll : Run.decideAll G = Run.decideAll H := by
  funext chooser run
  unfold Run.decideAll Run.pending
  rw [h.groupIds, h.policy, h.decide]

theorem spread : Run.spread G = Run.spread H := by
  funext run
  unfold Run.spread Run.isCalledFor
  rw [h.groupIds, h.needs]

theorem pass : Run.pass G = Run.pass H := by
  funext chooser run
  unfold Run.pass
  rw [h.pulled, h.decideAll, h.spread]

theorem settle (chooser : Chooser) (fuel : Nat) :
    Run.settle G chooser fuel = Run.settle H chooser fuel := by
  induction fuel with
  | zero =>
    funext run
    rw [Run.settle, Run.settle, h.groupName]
  | succ fuel ih =>
    funext run
    rw [Run.settle, Run.settle, h.pass, ih]

theorem passLimit : G.passLimit = H.passLimit := by
  rw [Graph.passLimit, Graph.passLimit, h.groupCount, h.parcelCount]

/-! ### The end of a run -/

theorem selectedMembers : G.selectedMembers = H.selectedMembers := by
  funext g selection
  rw [Graph.selectedMembers, Graph.selectedMembers, h.members]

theorem evaluate : G.evaluate = H.evaluate := by
  funext reading g required selection
  unfold Graph.evaluate
  rw [h.policy, h.members, h.selectedMembers]

theorem isSatisfied : G.isSatisfied = H.isSatisfied := by
  funext reading g required selection
  rw [Graph.isSatisfied, Graph.isSatisfied, h.evaluate]

theorem errorsAtEnd : Run.errorsAtEnd G = Run.errorsAtEnd H := by
  funext reading run
  have hjudged : run.errorAtEnd? G reading = run.errorAtEnd? H reading := by
    funext g
    unfold Run.errorAtEnd?
    rw [h.evaluate, h.groupName, h.parcelNames, h.selectedMembers]
  unfold Run.errorsAtEnd Run.standingErrors Run.isSettled
  rw [hjudged, h.groupIds, h.isSatisfied]

theorem labels : Run.labels G = Run.labels H := by
  funext run
  rw [Run.labels, Run.labels, h.declaredParcels]

end Graph.IsAlike

/-! ## Where a run starts -/

namespace Graph

variable {i : Invoice} {name : GroupName} {policy : Policy} {chooser : Chooser} {g : GroupId}

theorem optedIn_requiring :
    optedIn { invoice := i.requiring name } policy = optedIn { invoice := i } policy := by
  rw [optedIn, optedIn, (isAlike_requiring i name).groupId?]

theorem mem_optedIn_optInto_iff (hi : i.WellFormed) :
    g ∈ optedIn { invoice := i } (policy.optInto name.text) ↔
      groupRef { invoice := i } g = .named name ∨ g ∈ optedIn { invoice := i } policy := by
  rw [mem_optedIn_iff hi, mem_optedIn_iff hi, groupRef_eq_named_iff, ← exists_or]
  refine exists_congr fun group => ?_
  have hinsert : group.name.text ∈ (policy.optInto name.text).optedIn ↔
      group.name = name ∨ group.name.text ∈ policy.optedIn := by
    rw [Policy.optInto, NameSet.mem_insert, GroupName.text_inj]
  rw [hinsert, and_or_left]

/-- The same groups are required at the outset. -/
theorem initiallyRequired_optInto (hi : i.WellFormed) :
    initiallyRequired { invoice := i } (policy.optInto name.text) =
      initiallyRequired { invoice := i.requiring name } policy := by
  rw [initiallyRequired, initiallyRequired, (isAlike_requiring i name).groupIds,
    optedIn_requiring]
  refine List.filter_congr fun g _ => ?_
  rw [Bool.eq_iff_iff, Bool.or_eq_true, Bool.or_eq_true, List.contains_iff_mem,
    List.contains_iff_mem, mem_optedIn_optInto_iff hi, isRootRequired_requiring_iff]
  exact or_left_comm.trans or_assoc.symm

/-- Opting into a declared group is never refused. -/
theorem unknownOptIns_optInto {group : Group} (hgroup : group ∈ i.groups) :
    unknownOptIns { invoice := i } (policy.optInto group.name.text) =
      unknownOptIns { invoice := i.requiring group.name } policy := by
  have hknown : (groupId? { invoice := i } group.name.text).isNone = false := by
    rw [Bool.eq_false_iff, ne_eq, groupId?_isNone_iff]
    exact fun h => h group hgroup rfl
  rw [unknownOptIns, unknownOptIns, ← (isAlike_requiring i _).groupId?, Policy.optInto,
    NameSet.filter_insert hknown]

/-- **The run is the same** whether a group is opted into or declared required. -/
theorem settledRun_optInto (hi : i.WellFormed) {group : Group} (hgroup : group ∈ i.groups) :
    settledRun { invoice := i } (policy.optInto group.name.text) chooser =
      settledRun { invoice := i.requiring group.name } policy chooser := by
  have halike := isAlike_requiring i group.name
  rw [settledRun, settledRun, halike.cycleNames, unknownOptIns_optInto hgroup,
    initiallyRequired_optInto hi, halike.settle, halike.passLimit]

end Graph

/-! ## What the manifest says -/

/-- The report with this reason, if it is on the group of that name. -/
def GroupReport.withReason (r : GroupReport) (name : GroupName) (reason : RequiredReason) :
    GroupReport :=
  if r.group = .named name then { r with reason } else r

/-- The manifest with this reason for the group of that name. -/
def Manifest.withReason (m : Manifest) (name : GroupName) (reason : RequiredReason) : Manifest :=
  { m with report := m.report.map (·.withReason name reason) }

namespace Run

variable {i : Invoice} {group : Group} {name : GroupName} {policy : Policy} {run : Run}
  {g : GroupId}

/-- The reason tells which way the group became required. -/
theorem reason_optInto (run : Run) (policy : Policy) (hi : i.WellFormed)
    (hgroup : Graph.group? { invoice := i } g = some group) (hnot : group.required = false) :
    run.reason { invoice := i } (policy.optInto group.name.text) g = .optedIn ∧
      run.reason { invoice := i.requiring group.name } policy g = .declared := by
  have hname := Graph.groupRef_of_group? hgroup
  have hglobal : ¬g.isGlobal = true := by
    rw [Graph.isGlobal_iff]
    rintro rfl
    cases hgroup
  have hroot : ¬Graph.isRootRequired { invoice := i } g = true := by
    rw [Graph.isRootRequired_of_group? hgroup, hnot]
    exact Bool.false_ne_true
  have hopted : g ∈ Graph.optedIn { invoice := i } (policy.optInto group.name.text) :=
    (Graph.mem_optedIn_optInto_iff hi).2 (.inl hname)
  constructor
  · rw [reason, if_neg hglobal, if_neg hroot, if_pos (List.contains_iff_mem.2 hopted)]
  · rw [reason, if_neg hglobal, if_pos (Graph.isRootRequired_requiring_iff.2 (.inl hname))]

/-- The reasons for the other groups are the same. -/
theorem reason_optInto_of_ne (hi : i.WellFormed)
    (hname : Graph.groupRef { invoice := i } g ≠ .named name) :
    run.reason { invoice := i.requiring name } policy g =
      run.reason { invoice := i } (policy.optInto name.text) g := by
  have halike := Graph.isAlike_requiring i name
  have hroot : Graph.isRootRequired { invoice := i.requiring name } g =
      Graph.isRootRequired { invoice := i } g := by
    rw [Bool.eq_iff_iff, Graph.isRootRequired_requiring_iff, or_iff_right hname]
  have hopted : (Graph.optedIn { invoice := i } policy).contains g =
      (Graph.optedIn { invoice := i } (policy.optInto name.text)).contains g := by
    rw [Bool.eq_iff_iff, List.contains_iff_mem, List.contains_iff_mem,
      Graph.mem_optedIn_optInto_iff hi, or_iff_right hname]
  rw [reason, reason, hroot, Graph.optedIn_requiring, hopted, halike.parcelNames,
    halike.requiredBy]

/-- What else is said of a group is the same. -/
theorem reportOn_requiring :
    run.reportOn { invoice := i.requiring name } policy g =
      { run.reportOn { invoice := i } (policy.optInto name.text) g with
        reason := run.reason { invoice := i.requiring name } policy g } := by
  have halike := Graph.isAlike_requiring i name
  rw [reportOn, reportOn, halike.groupRef, halike.policy, halike.isSatisfied, halike.parcelNames,
    halike.selectedMembers]
  rfl

/-- The manifests differ in the reason for the group. -/
theorem manifest_requiring (hi : i.WellFormed)
    (hgroup : Graph.group? { invoice := i } g = some group) (hnot : group.required = false) :
    run.manifest { invoice := i.requiring group.name } policy =
      (run.manifest { invoice := i } (policy.optInto group.name.text)).withReason group.name
        .declared := by
  have halike := Graph.isAlike_requiring i group.name
  have hreport : ∀ h,
      run.reportOn { invoice := i.requiring group.name } policy h =
        (run.reportOn { invoice := i } (policy.optInto group.name.text) h).withReason group.name
          .declared := by
    intro h
    rw [reportOn_requiring, GroupReport.withReason]
    by_cases hname : Graph.groupRef { invoice := i } h = .named group.name
    · obtain rfl := Graph.eq_of_groupRef_named hi hname (Graph.groupRef_of_group? hgroup)
      rw [(reason_optInto run policy hi hgroup hnot).2]
      exact (if_pos hname).symm
    · rw [reason_optInto_of_ne hi hname]
      exact (if_neg hname).symm
  rw [manifest, manifest, Manifest.withReason, List.map_map, ← halike.groupIds, halike.labels,
    halike.name, List.map_congr_left fun h _ => hreport h]
  rfl

end Run

/-! ## Outcomes -/

/-- The manifests are equal but for the reason for one group, which was opted into for the one and
is declared required for the other. -/
structure Manifest.DifferInReason (m m' : Manifest) (name : GroupName) : Prop where
  optedIn : (m.group? name.text).map (·.reason) = some .optedIn
  declared : (m'.group? name.text).map (·.reason) = some .declared
  rest : m' = m.withReason name .declared

/-- The outcomes have the same questions and answers, and the same error or else manifests that
differ in one reason only. -/
structure Outcome.DifferInReason {ε : Type} (o o' : Outcome ε) (name : GroupName) : Prop where
  exchanges : o.exchanges = o'.exchanges
  result : (∃ error, o.result = .error error ∧ o'.result = .error error) ∨
    ∃ m m', o.result = .ok m ∧ o'.result = .ok m' ∧ m.DifferInReason m' name

namespace Run

variable {i : Invoice} {group : Group} {policy : Policy} {run : Run} {g : GroupId}

theorem differInReason_manifest (hi : i.WellFormed)
    (hgroup : Graph.group? { invoice := i } g = some group) (hnot : group.required = false) :
    (run.manifest { invoice := i } (policy.optInto group.name.text)).DifferInReason
      (run.manifest { invoice := i.requiring group.name } policy) group.name := by
  have hg := Graph.mem_groupIds_of_group? hgroup
  have hname := Graph.groupRef_of_group? hgroup
  have halike := Graph.isAlike_requiring i group.name
  obtain ⟨hopted, hdeclared⟩ := reason_optInto run policy hi hgroup hnot
  refine ⟨?_, ?_, manifest_requiring hi hgroup hnot⟩
  · rw [group?_manifest hi hg hname]
    exact congrArg some hopted
  · have hwf : (i.requiring group.name).WellFormed := hi.requiring
    rw [halike.groupIds] at hg
    rw [halike.groupRef] at hname
    have hfound : (run.manifest { invoice := i.requiring group.name } policy).group?
        group.name.text = some _ := group?_manifest hwf hg hname
    rw [hfound]
    exact congrArg some hdeclared

end Run

namespace Graph

variable {i : Invoice} {group : Group}

theorem differInReason_resolve (hi : i.WellFormed) (hgroup : group ∈ i.groups)
    (hnot : group.required = false) (policy : Policy) (chooser : Chooser) :
    (resolve { invoice := i } (policy.optInto group.name.text) chooser).DifferInReason
      (resolve { invoice := i.requiring group.name } policy chooser) group.name := by
  obtain ⟨g, hg⟩ : ∃ g, group? { invoice := i } g = some group := exists_group?_of_mem hgroup
  have halike := isAlike_requiring i group.name
  rw [resolve, resolve, settledRun_optInto hi hgroup]
  cases settledRun { invoice := i.requiring group.name } policy chooser with
  | error errors => exact ⟨rfl, .inl ⟨errors, rfl, rfl⟩⟩
  | ok run =>
    have hreading : (policy.optInto group.name.text).anyOf = policy.anyOf := rfl
    refine ⟨rfl, ?_⟩
    dsimp only
    rw [conclude, conclude, halike.errorsAtEnd, hreading]
    cases Run.errorsAtEnd { invoice := i.requiring group.name } policy.anyOf run with
    | nil => exact .inr ⟨_, _, rfl, rfl, Run.differInReason_manifest hi hg hnot⟩
    | cons error rest => exact .inl ⟨error :: rest, rfl, rfl⟩

end Graph

theorem Outcome.DifferInReason.mapError {ε δ : Type} {o o' : Outcome ε} {name : GroupName}
    (h : o.DifferInReason o' name) (f : ε → δ) :
    (o.mapError f).DifferInReason (o'.mapError f) name := by
  refine ⟨h.exchanges, ?_⟩
  rcases h.result with ⟨error, ho, ho'⟩ | ⟨m, m', ho, ho', hdiffer⟩
  · refine .inl ⟨f error, ?_, ?_⟩
    · rw [Outcome.mapError, ho, Except.mapError]
    · rw [Outcome.mapError, ho', Except.mapError]
  · refine .inr ⟨m, m', ?_, ?_, hdiffer⟩
    · rw [Outcome.mapError, ho, Except.mapError]
    · rw [Outcome.mapError, ho', Except.mapError]

/-- **Opting into a group is declaring it required.** When a valid invoice declares a group that is
not required, opting into it and resolving the invoice with the flag set come to the same: the
questions and answers are equal, and so are the errors, or else the manifests apart from the reason
for the group. -/
theorem Invoice.resolve_optInto {i : Invoice} (hi : i.IsValid) {group : Group}
    (hgroup : group ∈ i.groups) (hnot : group.required = false) (policy : Policy)
    (chooser : Chooser) (allowYanked : Bool) :
    (i.requiring group.name).IsValid ∧
      (i.resolve (policy.optInto group.name.text) chooser allowYanked).DifferInReason
        ((i.requiring group.name).resolve policy chooser allowYanked) group.name := by
  have halike := Graph.isAlike_requiring i group.name
  have hdiffer := Graph.differInReason_resolve hi.wellFormed hgroup hnot policy chooser
  refine ⟨hi.requiring, ?_⟩
  rw [resolve, resolve, Graph.build, Graph.build, halike.cycleNames]
  by_cases hrefused : i.yanked ∧ ¬allowYanked
  · have hrefused' : (i.requiring group.name).yanked ∧ ¬allowYanked := hrefused
    rw [if_pos hrefused, if_pos hrefused']
    exact ⟨rfl, .inl ⟨_, rfl, rfl⟩⟩
  · have hallowed : ¬((i.requiring group.name).yanked ∧ ¬allowYanked) := hrefused
    rw [if_neg hrefused, if_neg hallowed]
    cases Graph.cycleNames { invoice := i.requiring group.name } with
    | some names => exact ⟨rfl, .inl ⟨_, rfl, rfl⟩⟩
    | none => exact hdiffer.mapError ResolveError.resolution

/-- In the worked scenario the server is not required. Where it is declared so, the resolution
without opt-ins ends as the one that opts into it does. -/
theorem Worked.differInReason_server :
    invoice.IsValid ∧ ⟨server, .allOf, false⟩ ∈ invoice.groups ∧
      (invoice.requiring server).IsValid ∧
      (invoice.resolve (Policy.optInto ⟨.empty, .atLeastOne⟩ "server") .takeFirst
        false).DifferInReason
          ((invoice.requiring server).resolve ⟨.empty, .atLeastOne⟩ .takeFirst false) server ∧
      ((invoice.requiring server).resolve ⟨.empty, .atLeastOne⟩ .takeFirst false).result =
        .ok (manifest.withReason server .declared) := by
  have hgroup : (⟨server, .allOf, false⟩ : Group) ∈ invoice.groups := by decide +kernel
  obtain ⟨hvalid, hdiffer⟩ :=
    Invoice.resolve_optInto isValid hgroup rfl ⟨.empty, .atLeastOne⟩ .takeFirst false
  exact ⟨isValid, hgroup, hvalid, hdiffer, by decide +kernel⟩

end Bindle
