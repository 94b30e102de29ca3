import Bindle.Proofs.Resolution.Accounts

/-!
# The two readings of `anyOf`

A caller says whether a required group with the policy `anyOf` needs a selected member or gets by
without one. A run never looks at this: it starts from the opt-ins alone, and a group of this kind
contributes nothing to it. So the two readings put the same questions and settle in the same state,
and differ only in how that state is judged.

The stricter reading has one error for each required group of this kind without a selected member.
Such a group was never decided, so it has no other, and no other group has an error that says the
same, since names tell groups apart. The weaker reading has all errors but these.

* `Graph.settledRun_congr`: a run depends on the opt-ins alone.
* `Run.neglected`, `Run.neglectErrors`: the groups that only the stricter reading objects to, and
  what it says of them.
* `Run.filter_errorsAtEnd`, `Run.errorsAtEnd_optional`: the errors that the readings share, and
  those that they do not.
* `Run.manifest_optional`: without errors under the stricter reading, the manifests are equal.
* `Graph.resolve_readings`: how the outcomes compare.
-/

namespace Bindle

/-- The same opt-ins under the given reading. -/
def Policy.withReading (policy : Policy) (reading : AnyOfReading) : Policy :=
  { policy with anyOf := reading }

/-- The errors that a resolution ended with; none if it succeeded. -/
def Outcome.errors (o : Outcome (List ResolutionError)) : List ResolutionError :=
  match o.result with
  | .ok _ => []
  | .error errors => errors

namespace Graph

variable {G : Graph} {policy policy' : Policy} {chooser : Chooser} {reading reading' : AnyOfReading}
  {g : GroupId} {S : Set ParcelId} {required : Bool} {selection : Selection}

/-! ## The run -/

/-- A run depends on the opt-ins alone. -/
theorem settledRun_congr (h : policy.optedIn = policy'.optedIn) :
    G.settledRun policy chooser = G.settledRun policy' chooser := by
  have hunknown : G.unknownOptIns policy = G.unknownOptIns policy' := by
    rw [unknownOptIns, unknownOptIns, h]
  have hinitially : G.initiallyRequired policy = G.initiallyRequired policy' := by
    rw [initiallyRequired, initiallyRequired, optedIn, optedIn, h]
  rw [settledRun, settledRun, hunknown, hinitially]

/-! ## One group under both readings -/

theorem evaluate_of_ne_anyOf (hpolicy : G.policy g ≠ .anyOf) :
    G.evaluate reading g required selection = G.evaluate reading' g required selection := by
  unfold evaluate
  cases h : G.policy g with
  | allOf => rfl
  | oneOf => rfl
  | anyOf => exact absurd h hpolicy

/-- The weaker reading asks for less. -/
theorem Fulfils.optional (h : G.Fulfils reading S g) : G.Fulfils .optional S g := by
  cases hpolicy : G.policy g with
  | allOf => exact (fulfils_allOf hpolicy).2 ((fulfils_allOf hpolicy).1 h)
  | oneOf => exact (fulfils_oneOf hpolicy).2 ((fulfils_oneOf hpolicy).1 h)
  | anyOf => exact (fulfils_anyOf hpolicy).2 nofun

end Graph

namespace Run

variable {G : Graph} {chooser : Chooser} {reading reading' : AnyOfReading} {policy : Policy}
  {run : Run} {g : GroupId} {error : ResolutionError}

/-! ## What only the stricter reading objects to -/

/-- Whether any number of the group's members may be selected and none is. -/
def isBare (G : Graph) (run : Run) (g : GroupId) : Bool :=
  G.policy g == .anyOf && !run.isTaken G g

/-- The required groups of which any number of members may be selected and none is. -/
def neglected (G : Graph) (run : Run) : List GroupId :=
  (G.groupIds.filter (run.required.contains ·)).filter (run.isBare G)

/-- The errors that only the stricter reading reports. -/
def neglectErrors (G : Graph) (run : Run) : List ResolutionError :=
  (run.neglected G).map fun g => .unsatisfiable (G.groupName g)

theorem isBare_iff : run.isBare G g = true ↔ G.policy g = .anyOf ∧ ¬run.Takes G g := by
  rw [isBare, Bool.and_eq_true, beq_iff_eq, Bool.not_eq_true', ← Bool.not_eq_true, isTaken_iff]

theorem mem_neglected :
    g ∈ run.neglected G ↔
      (g ∈ G.groupIds ∧ g ∈ run.required) ∧ G.policy g = .anyOf ∧ ¬run.Takes G g := by
  rw [neglected, List.mem_filter, List.mem_filter, List.contains_iff_mem, isBare_iff]

theorem IsRecorded.hasError_eq_false (h : run.IsRecorded G chooser)
    (hpolicy : G.policy g ≠ .oneOf) : run.hasError g = false := by
  rw [Bool.eq_false_iff]
  intro hfailed
  obtain ⟨⟨g', error⟩, he, heq⟩ := List.any_eq_true.1 hfailed
  obtain rfl : g' = g := beq_iff_eq.1 heq
  exact hpolicy (h.decided g' (h.errors g' error he).1).2

/-- The errors of decisions are about groups that accept one parcel. -/
theorem IsRecorded.policy_ne_anyOf (h : run.IsRecorded G chooser) :
    ∀ e ∈ run.errors, G.policy e.1 ≠ .anyOf := by
  intro e he
  rw [(h.decided e.1 (h.errors e.1 e.2 he).1).2]
  exact GroupPolicy.noConfusion

/-- Under the stricter reading a bare group is an error. -/
theorem IsRecorded.errorAtEnd?_of_isBare (h : run.IsRecorded G chooser)
    (hbare : run.isBare G g = true) :
    run.errorAtEnd? G .atLeastOne g = some (.unsatisfiable (G.groupName g)) := by
  obtain ⟨hpolicy, huntaken⟩ := isBare_iff.1 hbare
  have hnone : (G.members g).any (· ∈ run.selection) = false := by
    rw [List.any_eq_false]
    intro p hp hsel
    exact huntaken ⟨p, hp, of_decide_eq_true hsel⟩
  have hunsatisfied : G.evaluate .atLeastOne g true run.selection = .unsatisfied := by
    simp [Graph.evaluate, hpolicy, hnone, Satisfaction.ofBool]
  have hfree : run.hasError g = false := h.hasError_eq_false (by simp [hpolicy])
  rw [errorAtEnd?, hunsatisfied]
  simp [hfree]

theorem errorAtEnd?_optional_of_anyOf (hpolicy : G.policy g = .anyOf) :
    run.errorAtEnd? G .optional g = none := by
  simp [errorAtEnd?, Graph.evaluate, hpolicy]

/-- The weaker reading judges a group as the stricter one does, unless it is bare. -/
theorem errorAtEnd?_optional :
    run.errorAtEnd? G .optional g =
      if run.isBare G g = false then run.errorAtEnd? G .atLeastOne g else none := by
  by_cases hpolicy : G.policy g = .anyOf
  · rw [errorAtEnd?_optional_of_anyOf hpolicy]
    split
    · rename_i hbare
      have htakes : run.Takes G g := by
        by_contra huntaken
        rw [isBare_iff.2 ⟨hpolicy, huntaken⟩] at hbare
        cases hbare
      have hfulfils : G.Fulfils .atLeastOne {p | p ∈ run.selection} g :=
        (Graph.fulfils_anyOf hpolicy).2 fun _ => htakes
      exact (errorAtEnd?_eq_none_iff.2 (.inl hfulfils)).symm
    · rfl
  · have hbare : run.isBare G g = false := by
      simp [isBare, hpolicy]
    rw [if_pos hbare, errorAtEnd?, errorAtEnd?, Graph.evaluate_of_ne_anyOf hpolicy]

/-- Errors of decisions stand under both readings or under none. -/
theorem IsRecorded.standingErrors_eq (h : run.IsRecorded G chooser)
    (reading reading' : AnyOfReading) :
    run.standingErrors G reading = run.standingErrors G reading' := by
  refine congrArg _ (List.filter_congr fun e he => ?_)
  rw [isSettled, isSettled, Graph.isSatisfied, Graph.isSatisfied,
    Graph.evaluate_of_ne_anyOf (h.policy_ne_anyOf e he)]

/-! ## All errors under both readings -/

variable (hG : G.invoice.WellFormed) (htidy : run.Tidy G) (h : run.IsRecorded G chooser)

include hG htidy

/-- An error about a required group is one that only the stricter reading reports exactly when the
group is bare and the error says so. -/
theorem mem_neglectErrors_iff (hg : g ∈ run.required)
    (hgroup : error.group? = some (G.groupName g)) :
    error ∈ run.neglectErrors G ↔
      run.isBare G g = true ∧ error = .unsatisfiable (G.groupName g) := by
  rw [neglectErrors, List.mem_map]
  constructor
  · rintro ⟨g', hg', rfl⟩
    obtain ⟨⟨hid, -⟩, hbare⟩ := mem_neglected.1 hg'
    have hsame : g' = g :=
      Graph.groupName_inj hG hid (htidy.required g hg) (Option.some.inj hgroup)
    rw [← hsame]
    exact ⟨isBare_iff.2 hbare, rfl⟩
  · rintro ⟨hbare, rfl⟩
    exact ⟨g, mem_neglected.2 ⟨⟨htidy.required g hg, hg⟩, isBare_iff.1 hbare⟩, rfl⟩

include h

theorem not_mem_neglectErrors_of_standing (he : error ∈ run.standingErrors G reading) :
    error ∉ run.neglectErrors G := by
  obtain ⟨⟨g, _⟩, hkept, rfl⟩ := List.mem_map.1 he
  have hmem := (List.mem_filter.1 hkept).1
  have hpolicy := (h.decided g (h.errors g _ hmem).1).2
  rw [mem_neglectErrors_iff hG htidy (h.mem_required hmem) (h.isOfDecision hmem).group?]
  rintro ⟨hbare, -⟩
  rw [(isBare_iff.1 hbare).1] at hpolicy
  cases hpolicy

/-- What is wrong with a group at the end is reported by the stricter reading only if the group is
bare. -/
theorem mem_neglectErrors_of_errorAtEnd? (hend : run.errorAtEnd? G .atLeastOne g = some error)
    (hg : g ∈ G.groupIds.filter (run.required.contains ·)) :
    error ∈ run.neglectErrors G ↔ run.isBare G g = true := by
  have hrequired := List.contains_iff_mem.1 (List.mem_filter.1 hg).2
  rw [mem_neglectErrors_iff hG htidy hrequired (group?_of_errorAtEnd? hend)]
  refine and_iff_left_of_imp fun hbare => ?_
  rw [h.errorAtEnd?_of_isBare hbare] at hend
  exact (Option.some.inj hend).symm

/-- The stricter reading has each of the errors that only it reports, once and in order. -/
theorem filter_errorsAtEnd :
    (run.errorsAtEnd G .atLeastOne).filter (· ∈ run.neglectErrors G) = run.neglectErrors G := by
  have hstanding : (run.standingErrors G .atLeastOne).filter (· ∈ run.neglectErrors G) = [] := by
    rw [List.filter_eq_nil_iff]
    intro error he
    simpa using not_mem_neglectErrors_of_standing hG htidy h he
  have hjudged : ((G.groupIds.filter (run.required.contains ·)).filterMap
      (run.errorAtEnd? G .atLeastOne)).filter (· ∈ run.neglectErrors G) =
        (run.neglected G).filterMap (run.errorAtEnd? G .atLeastOne) := by
    refine filter_filterMap_of_sort fun g error hend hg => ?_
    rw [decide_eq_true_iff]
    exact mem_neglectErrors_of_errorAtEnd? hG htidy h hend hg
  rw [errorsAtEnd, List.filter_append, hstanding, hjudged, List.nil_append, neglectErrors,
    ← List.filterMap_eq_map]
  refine List.filterMap_congr fun g hg => ?_
  exact h.errorAtEnd?_of_isBare (List.mem_filter.1 hg).2

/-- The weaker reading has all other errors, in order. -/
theorem errorsAtEnd_optional :
    run.errorsAtEnd G .optional =
      (run.errorsAtEnd G .atLeastOne).filter (· ∉ run.neglectErrors G) := by
  have hstanding : (run.standingErrors G .atLeastOne).filter (· ∉ run.neglectErrors G) =
      run.standingErrors G .optional := by
    rw [h.standingErrors_eq .atLeastOne .optional, List.filter_eq_self]
    intro error he
    simpa using not_mem_neglectErrors_of_standing hG htidy h he
  have hjudged : ((G.groupIds.filter (run.required.contains ·)).filterMap
      (run.errorAtEnd? G .atLeastOne)).filter (· ∉ run.neglectErrors G) =
        ((G.groupIds.filter (run.required.contains ·)).filter (!run.isBare G ·)).filterMap
          (run.errorAtEnd? G .atLeastOne) := by
    refine filter_filterMap_of_sort fun g error hend hg => ?_
    rw [decide_eq_true_iff, mem_neglectErrors_of_errorAtEnd? hG htidy h hend hg]
    simp
  rw [errorsAtEnd, errorsAtEnd, List.filter_append, hstanding, hjudged,
    List.filterMap_filter (p := (!run.isBare G ·))]
  simp only [errorAtEnd?_optional, Bool.not_eq_true']

omit hG h

/-! ## The manifest -/

/-- Where the stricter reading finds nothing wrong, the manifest is the same under both. -/
theorem manifest_optional (hnone : run.errorsAtEnd G .atLeastOne = []) :
    run.manifest G (policy.withReading .optional) =
      run.manifest G (policy.withReading .atLeastOne) := by
  have hfulfils := ((errorsAtEnd_eq_nil_iff htidy).1 hnone).2
  have hsatisfied : ∀ g, G.isSatisfied .optional g (run.required.contains g) run.selection =
      G.isSatisfied .atLeastOne g (run.required.contains g) run.selection := by
    intro g
    cases hg : run.required.contains g with
    | false => rw [Graph.isSatisfied_false, Graph.isSatisfied_false]
    | true =>
      have hstrict := hfulfils g (List.contains_iff_mem.1 hg)
      rw [Graph.isSatisfied_iff.2 hstrict, Graph.isSatisfied_iff.2 hstrict.optional]
  unfold manifest
  congr 1
  refine List.map_congr_left fun g _ => ?_
  unfold reportOn
  dsimp only [Policy.withReading]
  rw [hsatisfied g]
  rfl

end Run

/-! ## Outcomes -/

namespace Graph

variable {G : Graph} {policy : Policy} {chooser : Chooser}

theorem errors_resolve {run : Run} (hrun : G.settledRun policy chooser = .ok run) :
    (G.resolve policy chooser).errors = run.errorsAtEnd G policy.anyOf := by
  rw [Outcome.errors, resolve, hrun]
  dsimp only
  unfold conclude
  cases run.errorsAtEnd G policy.anyOf <;> rfl

/-- How the outcomes under both readings compare, when the run ends in the given state. -/
structure Relaxes (G : Graph) (run : Run) (strict optional : Outcome (List ResolutionError)) :
    Prop where
  exchanges : optional.exchanges = strict.exchanges
  neglected : strict.errors.filter (· ∈ run.neglectErrors G) = run.neglectErrors G
  errors : optional.errors = strict.errors.filter (· ∉ run.neglectErrors G)
  manifest : ∀ m, strict.result = .ok m → optional.result = .ok m

/-- **The readings differ in the final check only.** Whatever the chooser answers, the runs under
both readings put the same questions and end in the same state. The errors of the weaker reading
are those of the stricter one, without the one that each required `anyOf` group with no selected
member has; so what succeeds under the stricter reading succeeds under the weaker one, with the
same manifest. -/
theorem resolve_readings {i : Invoice} (hi : i.IsValid) (hG : Graph.build i = .ok G)
    (hopt : G.DeclaresOptIns policy) (chooser : Chooser) :
    ∃ run, G.settledRun (policy.withReading .atLeastOne) chooser = .ok run ∧
      G.settledRun (policy.withReading .optional) chooser = .ok run ∧
      G.Relaxes run (G.resolve (policy.withReading .atLeastOne) chooser)
        (G.resolve (policy.withReading .optional) chooser) := by
  have hwf := wellFormed_of_build hi hG
  obtain ⟨run, hrun, hpasses, -⟩ := settledRun_eq_ok (build_eq_ok_iff.1 hG).2 hopt chooser
  have hrecorded := hpasses.isRecorded hwf
  have hstrict : G.settledRun (policy.withReading .atLeastOne) chooser = .ok run := by
    rw [← hrun]
    exact settledRun_congr rfl
  have hoptional : G.settledRun (policy.withReading .optional) chooser = .ok run := by
    rw [← hrun]
    exact settledRun_congr rfl
  refine ⟨run, hstrict, hoptional, ?_, ?_, ?_, ?_⟩
  · rw [exchanges_resolve hstrict, exchanges_resolve hoptional]
  · rw [errors_resolve hstrict]
    exact Run.filter_errorsAtEnd hwf hpasses.tidy hrecorded
  · rw [errors_resolve hstrict, errors_resolve hoptional]
    exact Run.errorsAtEnd_optional hwf hpasses.tidy hrecorded
  · intro m hm
    obtain ⟨run', hrun', hnone, rfl⟩ := resolve_eq_ok_iff.1 hm
    obtain rfl : run = run' := Except.ok.inj (hstrict.symm.trans hrun')
    refine resolve_eq_ok_iff.2 ⟨run, hoptional, ?_, (Run.manifest_optional hpasses.tidy hnone).symm⟩
    have herrors := Run.errorsAtEnd_optional hwf hpasses.tidy hrecorded
    rw [show run.errorsAtEnd G .atLeastOne = [] from hnone] at herrors
    exact herrors

end Graph

/-- With the second tool the server has no utility, which the weaker reading lets pass. -/
theorem Worked.relaxes_second :
    (graph.resolve (policy.withReading .atLeastOne) .takeLast).errors = [.unsatisfiable "utility"] ∧
      (graph.resolve (policy.withReading .optional) .takeLast).errors = [] ∧
      ∃ run, graph.Relaxes run (graph.resolve (policy.withReading .atLeastOne) .takeLast)
        (graph.resolve (policy.withReading .optional) .takeLast) := by
  obtain ⟨run, -, -, hrelaxes⟩ :=
    Graph.resolve_readings isValid build_eq declaresOptIns .takeLast
  exact ⟨by decide +kernel, by decide +kernel, run, hrelaxes⟩

end Bindle
