import Bindle.Proofs.Graph.Relocation
import Bindle.Proofs.Resolution.Report
import Bindle.Proofs.Resolution.Settling

/-!
# Runs with parcels at other places

Where the parcels of one graph stand at other places of another, a run does the same in both, as
far as the groups matter that a run looks at. These are the groups that pull in all of their
members or accept one: a group with the policy `anyOf` neither selects a parcel nor keeps one from
being selected. The parcels that were selected are then the same at other places, and so are the
candidates in the questions; everything else in the states of the two runs is equal.

This is shown for one function of the run after the other, in the order in which they use each
other, and holds for settled runs because a run settles however many passes more are allowed.

* `Run.relocate`, `Question.relocate`: a state and a question with parcels at other places.
* `Chooser.Repeats`: a chooser gives the same answers to questions at other places.
* `Run.decide_relocate`, `Run.pass_relocate`, `Run.settle_relocate`: the steps of a run.
* `Graph.Relocates.settledRun`: the settled runs.
* `Graph.Relocates.evaluate`, `Run.errorAtEnd?_relocate`: how a group is judged at the end.
* `Graph.Relocates.resolve`: the outcomes, where every group matters.
-/

namespace Bindle

/-! ## Questions at other places -/

section

variable (place : ParcelId → ParcelId)

/-- The candidate at its other place. -/
def Candidate.relocate (c : Candidate) : Candidate :=
  { c with id := place c.id }

/-- The question with its candidates at other places. -/
def Question.relocate (q : Question) : Question :=
  { q with candidates := q.candidates.map (·.relocate place) }

/-- The exchange on the question at other places. -/
def Exchange.relocate (e : Exchange) : Exchange :=
  { e with question := e.question.relocate place }

/-- To a question at other places `chooser` answers what `chooser'` answers. -/
def Chooser.Repeats (chooser chooser' : Chooser) : Prop :=
  ∀ earlier q,
    chooser (earlier.map (·.relocate place)) (q.relocate place) = chooser' earlier q

/-- The state with its parcels at other places. -/
def Run.relocate (run : Run) : Run :=
  { run with
    selection := run.selection.map place
    exchanges := run.exchanges.map (·.relocate place) }

end

variable {place : ParcelId → ParcelId}

theorem Question.candidateNames_relocate (q : Question) :
    (q.relocate place).candidateNames = q.candidateNames := by
  rw [candidateNames, relocate, List.map_map]
  rfl

theorem Question.candidate?_relocate (q : Question) (name : String) :
    (q.relocate place).candidate? name = (q.candidate? name).map (·.relocate place) := by
  rw [candidate?, relocate, List.find?_map]
  rfl

variable {G H : Graph} {matters : GroupId → Prop}

theorem Graph.Relocates.question (h : Relocates H G place matters) (name : GroupName)
    (ps : List ParcelId) :
    G.question name (ps.map place) = (H.question name ps).relocate place := by
  unfold Graph.question Question.relocate
  congr 1
  rw [List.filterMap_map, List.map_filterMap]
  refine List.filterMap_congr fun p _ => ?_
  have hlabel := congrArg (Option.map (Candidate.mk (place p))) (h.label p)
  rw [Option.map_map, Option.map_map] at hlabel
  rw [Option.map_map]
  exact hlabel

namespace Run

variable {chooser chooser' : Chooser} {run : Run} {g : GroupId} {p : ParcelId}

theorem selection_relocate : (run.relocate place).selection = run.selection.map place := rfl

/-! ## What a run looks at -/

section Views

variable (h : Graph.Relocates H G place matters)

include h

theorem contains_relocate (run : Run) (p : ParcelId) :
    (run.relocate place).selection.contains (place p) = run.selection.contains p :=
  contains_congr h.mem_map_place

theorem isTaken_relocate (hg : matters g) :
    (run.relocate place).isTaken G g = run.isTaken H g := by
  rw [isTaken, isTaken, h.members hg, List.any_map]
  exact congrArg _ (funext fun p => contains_relocate h run p)

theorem isCalledFor_relocate : (run.relocate place).isCalledFor G g = run.isCalledFor H g := by
  rw [isCalledFor, isCalledFor, relocate, List.any_map]
  exact congrArg _ (funext fun p => h.needs p g)

theorem pending_relocate : (run.relocate place).pending G = run.pending H := by
  rw [pending, pending, Graph.groupIds_congr h.shapes, Graph.policy_congr h.shapes]
  rfl

theorem spread_relocate :
    (run.relocate place).spread G = (run.spread H).relocate place := by
  unfold spread
  rw [Graph.groupIds_congr h.shapes]
  simp only [isCalledFor_relocate h]
  rfl

variable (hmatters : ∀ g, H.policy g ≠ .anyOf → matters g)

include hmatters

theorem isPulled_relocate : (run.relocate place).isPulled G (place p) = run.isPulled H p := by
  rw [Bool.eq_iff_iff, isPulled_iff, isPulled_iff, Graph.policy_congr h.shapes]
  refine exists_congr fun g => and_congr_right fun _ => and_congr_right fun hpolicy => ?_
  have hg : matters g := hmatters g (by simp [hpolicy])
  rw [h.members hg, h.mem_map_place]

theorem pulled_relocate :
    (run.relocate place).pulled G = (run.pulled H).map place := by
  have hplaced : ∀ p, (!(run.relocate place).selection.contains p &&
      (run.relocate place).isPulled G p) = true → ∃ q, place q = p := by
    intro p hp
    obtain ⟨g, -, hpolicy, hmem⟩ := isPulled_iff.1 (Bool.and_eq_true_iff.1 hp).2
    rw [Graph.policy_congr h.shapes] at hpolicy
    exact h.placed g p (hmatters g (by simp [hpolicy])) (Graph.mem_members.1 hmem)
  rw [pulled, pulled, h.filter_parcelIds hplaced]
  refine congrArg _ (List.filter_congr fun p _ => ?_)
  rw [Function.comp_apply, contains_relocate h, isPulled_relocate h hmatters]

theorem isClosed_relocate : (run.relocate place).isClosed G g = run.isClosed H g := by
  rw [isClosed, isClosed, Graph.policy_congr h.shapes]
  by_cases hpolicy : H.policy g = .oneOf
  · rw [isTaken_relocate h (hmatters g (by simp [hpolicy]))]
    rfl
  · have hfalse : (H.policy g == .oneOf) = false := beq_eq_false_iff_ne.2 hpolicy
    simp only [hfalse, Bool.and_false, Bool.false_and]

theorem conflicts_relocate :
    (run.relocate place).conflicts G g (place p) = run.conflicts H g p := by
  rw [Bool.eq_iff_iff, conflicts_iff, conflicts_iff]
  refine exists_congr fun other => and_congr_right fun _ => ?_
  rw [isClosed_relocate h hmatters]
  refine and_congr_right fun hclosed => ?_
  have hpolicy : H.policy other = .oneOf := (isClosed_iff.1 hclosed).2.1
  rw [h.members (hmatters other (by simp [hpolicy])), h.mem_map_place]

theorem viable_relocate (hg : matters g) :
    (run.relocate place).viable G g = (run.viable H g).map place := by
  rw [viable, viable, h.members hg, List.filter_map]
  refine congrArg _ (List.filter_congr fun p _ => ?_)
  rw [Function.comp_apply, conflicts_relocate h hmatters]

end Views

/-! ## What a run does -/

theorem select_relocate (run : Run) (ps : List ParcelId) :
    (run.relocate place).select (ps.map place) = (run.select ps).relocate place := by
  unfold select relocate
  rw [List.map_append]

theorem record_relocate (run : Run) (q : Question) (choice : Choice) :
    (run.relocate place).record (q.relocate place) choice =
      (run.record q choice).relocate place := by
  unfold record relocate
  rw [List.map_append]
  rfl

theorem answer_relocate (run : Run) (g : GroupId) (q : Question) (choice : Choice) :
    (run.relocate place).answer g (q.relocate place) choice =
      (run.answer g q choice).relocate place := by
  cases choice with
  | skip =>
    show ((run.relocate place).record (q.relocate place) .skip).fail g _ = _
    rw [record_relocate, q.candidateNames_relocate]
    rfl
  | select name =>
    unfold answer
    dsimp only
    rw [q.candidate?_relocate]
    cases q.candidate? name with
    | none => exact congrArg (fail · g _) (record_relocate run q (.select name))
    | some c =>
      show ((run.relocate place).record (q.relocate place) (.select name)).select [place c.id] = _
      rw [record_relocate]
      exact select_relocate _ [c.id]

variable (h : Graph.Relocates H G place matters)
  (hmatters : ∀ g, H.policy g ≠ .anyOf → matters g) (hanswers : chooser.Repeats place chooser')

include h hanswers

theorem ask_relocate (ps : List ParcelId) :
    (run.relocate place).ask G chooser g (ps.map place) =
      (run.ask H chooser' g ps).relocate place := by
  unfold ask
  rw [Graph.group?_congr h.groups]
  cases H.group? g with
  | none => rfl
  | some group =>
    dsimp only
    rw [h.question, ← hanswers]
    exact answer_relocate run g _ _

include hmatters

/-- A decision comes to the same. -/
theorem decide_relocate (hg : matters g) :
    (run.relocate place).decide G chooser g = (run.decide H chooser' g).relocate place := by
  unfold decide
  rw [isTaken_relocate h hg, viable_relocate h hmatters hg]
  split
  · rfl
  · cases run.viable H g with
    | nil =>
      dsimp only [List.map_nil]
      rw [Graph.groupName_congr h.shapes]
      rfl
    | cons p rest =>
      cases rest with
      | nil => rfl
      | cons q rest =>
        show ((run.markDecided g).relocate place).ask G chooser g ((p :: q :: rest).map place) =
          ((run.markDecided g).ask H chooser' g (p :: q :: rest)).relocate place
        exact ask_relocate h hanswers _

theorem decideAll_relocate :
    (run.relocate place).decideAll G chooser = (run.decideAll H chooser').relocate place := by
  rw [decideAll, decideAll, pending_relocate h]
  have hpending : ∀ g ∈ run.pending H, matters g := by
    intro g hg
    refine hmatters g ?_
    rw [(mem_pending.1 hg).2.2.1]
    exact GroupPolicy.noConfusion
  generalize run.pending H = gs at hpending
  induction gs generalizing run with
  | nil => rfl
  | cons g rest ih =>
    rw [List.foldl_cons, List.foldl_cons,
      decide_relocate h hmatters hanswers (hpending g List.mem_cons_self)]
    exact ih fun g' hg' => hpending g' (List.mem_cons_of_mem _ hg')

/-- A pass comes to the same. -/
theorem pass_relocate :
    (run.relocate place).pass G chooser = (run.pass H chooser').relocate place := by
  unfold pass
  rw [pulled_relocate h hmatters]
  cases run.pulled H with
  | nil =>
    show ((run.relocate place).decideAll G chooser).spread G =
      ((run.decideAll H chooser').spread H).relocate place
    rw [decideAll_relocate h hmatters hanswers, spread_relocate h]
  | cons p rest =>
    show ((run.relocate place).select ((p :: rest).map place)).spread G =
      ((run.select (p :: rest)).spread H).relocate place
    rw [select_relocate, spread_relocate h]

/-- However many passes are allowed, they come to the same. -/
theorem settle_relocate (fuel : Nat) :
    (run.relocate place).settle G chooser fuel =
      (run.settle H chooser' fuel).map (·.relocate place) := by
  induction fuel generalizing run with
  | zero =>
    rw [settle, settle, Graph.groupName_congr h.shapes]
    rfl
  | succ fuel ih =>
    have hsame : ∀ next : Run,
        (run.relocate place).sameSize (next.relocate place) = run.sameSize next := by
      intro next
      simp only [sameSize, relocate, List.length_map]
    rw [settle, settle, pass_relocate h hmatters hanswers, hsame]
    split
    · rfl
    · exact ih

end Run

/-! ## Settled runs -/

namespace Graph

variable {policy : Policy} {chooser chooser' : Chooser}

theorem initiallyRequired_congr (hgroups : G.invoice.groups = H.invoice.groups) :
    G.initiallyRequired policy = H.initiallyRequired policy := by
  rw [initiallyRequired, initiallyRequired, optedIn, optedIn, groupIds_congr (shapes_congr hgroups),
    groupId?_congr (shapes_congr hgroups), isRootRequired_congr hgroups]

theorem unknownOptIns_congr (hgroups : G.invoice.groups = H.invoice.groups) :
    G.unknownOptIns policy = H.unknownOptIns policy := by
  rw [unknownOptIns, unknownOptIns, groupId?_congr (shapes_congr hgroups)]

/-- **Runs settle in the same state**, up to the places of parcels, when a chooser gives the same
answers in both and both graphs have the same cycle or none. -/
theorem Relocates.settledRun (h : Relocates H G place matters)
    (hmatters : ∀ g, H.policy g ≠ .anyOf → matters g) (hanswers : chooser.Repeats place chooser')
    (hcycle : G.cycleNames = H.cycleNames) :
    G.settledRun policy chooser = (H.settledRun policy chooser').map (·.relocate place) := by
  unfold Graph.settledRun
  rw [hcycle, unknownOptIns_congr h.groups, initiallyRequired_congr h.groups]
  cases hnone : H.cycleNames with
  | some names => rfl
  | none =>
    cases hopts : H.unknownOptIns policy with
    | cons first rest => rfl
    | nil =>
      -- more passes are allowed in `G`, but the run in `H` settles without them
      obtain ⟨last, hlast, -⟩ := settledRun_eq_ok (cycleNames_eq_none_iff.1 hnone)
        (unknownOptIns_eq_nil_iff.1 hopts) chooser'
      obtain ⟨n, hn, hsettles, hlast'⟩ := Run.settle_eq_ok_iff.1 (settle_of_settledRun hlast)
      have hlimit : H.passLimit ≤ G.passLimit := by
        have hcount := h.parcelCount_le
        rw [passLimit, passLimit, groupCount_congr h.shapes]
        omega
      have hmore := Run.settle_eq_ok_iff.2 ⟨n, hn.trans_le hlimit, hsettles, hlast'⟩
      dsimp only
      rw [settle_of_settledRun hlast, ← hmore]
      show ((Run.start (H.initiallyRequired policy)).relocate place).settle G chooser _ = _
      exact Run.settle_relocate h hmatters hanswers _

/-! ## The end of a run -/

variable (h : Relocates H G place matters) {g : GroupId} {reading : AnyOfReading} {required : Bool}
  {selection : Selection}

include h

theorem Relocates.selectedMembers (hg : matters g) :
    G.selectedMembers g (selection.map place) = (H.selectedMembers g selection).map place := by
  rw [Graph.selectedMembers, Graph.selectedMembers, h.members hg, List.filter_map]
  refine congrArg _ (List.filter_congr fun p _ => ?_)
  exact decide_eq_decide.2 h.mem_map_place

/-- A group that matters is judged the same. -/
theorem Relocates.evaluate (hg : matters g) :
    G.evaluate reading g required (selection.map place) =
      H.evaluate reading g required selection := by
  unfold Graph.evaluate
  rw [policy_congr h.shapes, h.selectedMembers hg, h.members hg, List.length_map, List.all_map,
    List.any_map]
  simp only [Function.comp_def, h.mem_map_place]

end Graph

namespace Run

/-- The labels of the selected parcels, by going through the positions. -/
theorem labels_eq_filterMap (run : Run) :
    run.labels G = (G.parcelIds.filter (run.selection.contains ·)).filterMap
      fun p => (G.parcel? p).map (·.label) := by
  have hdeclared : ∀ d ∈ G.declaredParcels.filter fun d => run.selection.contains d.1,
      (G.parcel? d.1).map (·.label) = some d.2.label := by
    intro d hd
    rw [Graph.mem_declaredParcels.1 (List.mem_filter.1 hd).1, Option.map_some]
  rw [← Graph.map_fst_declaredParcels, List.filter_map, List.filterMap_map, labels,
    ← List.filterMap_eq_map]
  exact (List.filterMap_congr hdeclared).symm

variable {run : Run} {policy : Policy} {g : GroupId} {reading : AnyOfReading}

variable (h : Graph.Relocates H G place matters)

include h

theorem filter_parcelIds_relocate (run : Run) (f : ParcelId → Bool) :
    G.parcelIds.filter (fun p => f p && (run.relocate place).selection.contains p) =
      (H.parcelIds.filter fun p => f (place p) && run.selection.contains p).map place := by
  have hplaced : ∀ p, (f p && (run.relocate place).selection.contains p) = true →
      ∃ q, place q = p := by
    intro p hp
    obtain ⟨q, -, hq⟩ := List.mem_map.1 (List.contains_iff_mem.1 (Bool.and_eq_true_iff.1 hp).2)
    exact ⟨q, hq⟩
  rw [h.filter_parcelIds hplaced]
  refine congrArg _ (List.filter_congr fun p _ => ?_)
  rw [Function.comp_apply, contains_relocate h]

/-- The selected parcels have the same labels. -/
theorem labels_relocate : (run.relocate place).labels G = run.labels H := by
  have hselected := filter_parcelIds_relocate h run fun _ => true
  simp only [Bool.true_and] at hselected
  rw [labels_eq_filterMap, labels_eq_filterMap, hselected, List.filterMap_map]
  exact List.filterMap_congr fun p _ => h.label p

theorem errorAtEnd?_relocate (hg : matters g) :
    (run.relocate place).errorAtEnd? G reading g = run.errorAtEnd? H reading g := by
  rw [errorAtEnd?, errorAtEnd?, selection_relocate, h.evaluate hg, h.selectedMembers hg,
    h.parcelNames, Graph.groupName_congr h.shapes]
  rfl

/-- The same errors of decisions stand, as all of them are about groups that matter. -/
theorem standingErrors_relocate (herrors : ∀ e ∈ run.errors, matters e.1) :
    (run.relocate place).standingErrors G reading = run.standingErrors H reading := by
  refine congrArg _ (List.filter_congr fun e he => ?_)
  have hsettled : (run.relocate place).isSettled G reading e.1 = run.isSettled H reading e.1 := by
    rw [isSettled, isSettled, Graph.isSatisfied, Graph.isSatisfied, selection_relocate,
      h.evaluate (herrors e he)]
    rfl
  rw [hsettled]

theorem errorsAtEnd_relocate (herrors : ∀ e ∈ run.errors, matters e.1)
    (hjudged : ∀ g, (run.relocate place).errorAtEnd? G reading g = run.errorAtEnd? H reading g) :
    (run.relocate place).errorsAtEnd G reading = run.errorsAtEnd H reading := by
  rw [errorsAtEnd, errorsAtEnd, standingErrors_relocate h herrors,
    Graph.groupIds_congr h.shapes]
  exact congrArg _ (List.filterMap_congr fun g _ => hjudged g)

theorem reason_relocate :
    (run.relocate place).reason G policy g = run.reason H policy g := by
  have hselected : (G.requiredBy g).filter ((run.relocate place).selection.contains ·) =
      ((H.requiredBy g).filter (run.selection.contains ·)).map place := by
    rw [Graph.requiredBy_eq_filter, Graph.requiredBy_eq_filter, List.filter_filter,
      List.filter_filter]
    simp only [Bool.and_comm _ (Graph.needs _ _ g), filter_parcelIds_relocate h, h.needs]
  rw [reason, reason, hselected, h.parcelNames, Graph.isRootRequired_congr h.groups,
    Graph.optedIn, Graph.optedIn, Graph.groupId?_congr h.shapes]
  rfl

theorem reportOn_relocate (hg : matters g) :
    (run.relocate place).reportOn G policy g = run.reportOn H policy g := by
  unfold reportOn
  dsimp only
  rw [reason_relocate h, Graph.groupRef_congr h.shapes, Graph.policy_congr h.shapes,
    Graph.isSatisfied, selection_relocate, h.evaluate hg, h.selectedMembers hg, h.parcelNames]
  rfl

/-- Where all groups matter, the manifests are equal. -/
theorem manifest_relocate (hall : ∀ g, matters g) (hname : G.invoice.name = H.invoice.name) :
    (run.relocate place).manifest G policy = run.manifest H policy := by
  unfold manifest
  rw [hname, labels_relocate h, Graph.groupIds_congr h.shapes]
  exact congrArg _ (List.map_congr_left fun g _ => reportOn_relocate h (hall g))

end Run

/-- **Resolutions come to the same** where all groups matter: the questions are those of the other
graph at other places, and the manifests or the errors are equal. -/
theorem Graph.Relocates.resolve {chooser chooser' : Chooser} (h : Relocates H G place matters)
    (hall : ∀ g, matters g) (hname : G.invoice.name = H.invoice.name)
    (hanswers : chooser.Repeats place chooser') (policy : Policy) :
    (G.resolve policy chooser).exchanges =
        (H.resolve policy chooser').exchanges.map (·.relocate place) ∧
      (G.resolve policy chooser).result = (H.resolve policy chooser').result := by
  have hcycle := h.cycleNames hall
  rw [Graph.resolve, Graph.resolve, h.settledRun (fun g _ => hall g) hanswers hcycle]
  cases H.settledRun policy chooser' with
  | error errors => exact ⟨rfl, rfl⟩
  | ok run =>
    refine ⟨rfl, ?_⟩
    show G.conclude policy (run.relocate place) = H.conclude policy run
    rw [conclude, conclude, Run.manifest_relocate h hall hname,
      Run.errorsAtEnd_relocate h (fun e _ => hall e.1) fun g => Run.errorAtEnd?_relocate h (hall g)]

end Bindle
