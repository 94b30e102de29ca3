import Bindle.Proofs.Resolution.Settling
import Mathlib.Data.Set.Basic
import Mathlib.Logic.ExistsUnique

/-!
# When a resolution succeeds

The verdict on a settled run is taken from its selection alone once every error of a decision is
forgiven: a resolution succeeds when each required group has what its policy asks for and no
answer was refused.

* `Graph.Fulfils`: what the policy of a required group asks of a set of parcels.
* `isSatisfied_iff`: the evaluator decides it.
* `errorsAtEnd_eq_nil_iff`: which settled runs have no errors.
* `resolve_eq_ok_iff`: a resolution succeeds with the manifest of such a run.
-/

namespace Bindle

namespace Graph

variable {G : Graph} {reading : AnyOfReading} {g : GroupId} {S : Set ParcelId}

/-- What the policy of a required group asks of a set of parcels. -/
def Fulfils (G : Graph) (reading : AnyOfReading) (S : Set ParcelId) (g : GroupId) : Prop :=
  match G.policy g with
  | .allOf => ∀ p ∈ G.members g, p ∈ S
  | .oneOf => ∃! p, p ∈ G.members g ∧ p ∈ S
  | .anyOf => reading = .atLeastOne → ∃ p ∈ G.members g, p ∈ S

theorem fulfils_allOf (hpolicy : G.policy g = .allOf) :
    G.Fulfils reading S g ↔ ∀ p ∈ G.members g, p ∈ S := by
  rw [Fulfils, hpolicy]

theorem fulfils_oneOf (hpolicy : G.policy g = .oneOf) :
    G.Fulfils reading S g ↔ ∃! p, p ∈ G.members g ∧ p ∈ S := by
  rw [Fulfils, hpolicy]

theorem fulfils_anyOf (hpolicy : G.policy g = .anyOf) :
    G.Fulfils reading S g ↔ (reading = .atLeastOne → ∃ p ∈ G.members g, p ∈ S) := by
  rw [Fulfils, hpolicy]

/-! ## The evaluator -/

theorem length_eq_one_iff_existsUnique {α : Type} {l : List α} (hl : l.Nodup) :
    l.length = 1 ↔ ∃! a, a ∈ l := by
  constructor
  · intro h
    obtain ⟨a, rfl⟩ := List.length_eq_one_iff.1 h
    exact ⟨a, by simp, by simp⟩
  · rintro ⟨a, ha, hunique⟩
    match l, hl, ha, hunique with
    | [b], _, _, _ => rfl
    | b :: c :: rest, hl, _, hunique =>
      have hb : b = a := hunique b (by simp)
      have hc : c = a := hunique c (by simp)
      subst hb hc
      simp at hl

theorem mem_selectedMembers {selection : Selection} {p : ParcelId} :
    p ∈ G.selectedMembers g selection ↔ p ∈ G.members g ∧ p ∈ selection := by
  simp [selectedMembers]

theorem nodup_selectedMembers {selection : Selection} :
    (G.selectedMembers g selection).Nodup :=
  nodup_members.filter _

/-- The selected member of a group that has just one. -/
theorem selectedMembers_eq_singleton {selection : Selection} {p : ParcelId} (hp : p ∈ G.members g)
    (hsel : p ∈ selection) (hunique : ∃! q, q ∈ G.members g ∧ q ∈ selection) :
    G.selectedMembers g selection = [p] := by
  have hmem : p ∈ G.selectedMembers g selection := mem_selectedMembers.2 ⟨hp, hsel⟩
  have hlen : (G.selectedMembers g selection).length = 1 := by
    rw [length_eq_one_iff_existsUnique nodup_selectedMembers]
    simpa only [mem_selectedMembers] using hunique
  obtain ⟨q, hq⟩ := List.length_eq_one_iff.1 hlen
  rw [hq, List.mem_singleton] at hmem
  rw [hq, hmem]

@[simp] theorem ofBool_eq_satisfied {b : Bool} : Satisfaction.ofBool b = .satisfied ↔ b = true := by
  cases b <;> simp [Satisfaction.ofBool]

@[simp] theorem ofCount_eq_satisfied {n : Nat} : Satisfaction.ofCount n = .satisfied ↔ n = 1 := by
  match n with
  | 0 => simp [Satisfaction.ofCount]
  | 1 => simp [Satisfaction.ofCount]
  | n + 2 => simp [Satisfaction.ofCount]

/-- The evaluator decides what the policy of a required group asks for. -/
theorem isSatisfied_iff {selection : Selection} :
    G.isSatisfied reading g true selection = true ↔
      G.Fulfils reading {p | p ∈ selection} g := by
  unfold isSatisfied
  rw [beq_iff_eq]
  cases hpolicy : G.policy g with
  | allOf =>
    rw [fulfils_allOf hpolicy]
    simp [evaluate, hpolicy]
  | oneOf =>
    rw [fulfils_oneOf hpolicy]
    simp only [evaluate, hpolicy, ofCount_eq_satisfied]
    rw [length_eq_one_iff_existsUnique nodup_selectedMembers]
    simp only [mem_selectedMembers, Set.mem_ofPred_eq]
  | anyOf =>
    rw [fulfils_anyOf hpolicy]
    by_cases hreading : reading = .atLeastOne
    · simp [evaluate, hpolicy, hreading]
    · simp [evaluate, hpolicy, hreading]

/-- Only a group that accepts one parcel can have too many, and it does from the second one on. -/
theorem evaluate_eq_overSatisfied_iff {required : Bool} {selection : Selection} :
    G.evaluate reading g required selection = .overSatisfied ↔
      G.policy g = .oneOf ∧ 1 < (G.selectedMembers g selection).length := by
  have hbool : ∀ b, Satisfaction.ofBool b ≠ .overSatisfied := by
    intro b
    cases b <;> exact Satisfaction.noConfusion
  have hcount : ∀ n, Satisfaction.ofCount n = .overSatisfied ↔ 1 < n := by
    intro n
    match n with
    | 0 => simp [Satisfaction.ofCount]
    | 1 => simp [Satisfaction.ofCount]
    | n + 2 => simp [Satisfaction.ofCount]
  unfold evaluate
  cases G.policy g with
  | allOf => simp [hbool]
  | oneOf => simp [hcount]
  | anyOf =>
    simp only [reduceCtorEq, false_and, iff_false]
    split
    · exact hbool _
    · exact Satisfaction.noConfusion

/-- A group that is not required is judged like a required one under the weaker reading. -/
theorem isSatisfied_false {selection : Selection} :
    G.isSatisfied reading g false selection = G.isSatisfied .optional g true selection := by
  unfold isSatisfied evaluate
  cases G.policy g <;> simp

end Graph

/-! ## Errors at the end -/

namespace Run

variable {G : Graph} {reading : AnyOfReading} {run : Run} {g : GroupId}

theorem isSettled_iff :
    run.isSettled G reading g = true ↔
      g ∈ run.required ∧ G.Fulfils reading {p | p ∈ run.selection} g := by
  rw [isSettled, Bool.and_eq_true, Graph.isSatisfied_iff]
  simp

/-- In a quiet state a required group that takes all of its members has them. -/
theorem IsQuiet.fulfils_allOf (hquiet : run.IsQuiet G) (hg : g ∈ run.required)
    (hpolicy : G.policy g = .allOf) : G.Fulfils reading {p | p ∈ run.selection} g :=
  (Graph.fulfils_allOf hpolicy).2 (hquiet.pulled g hg hpolicy)

/-- A group that accepts one parcel and has a selected member is not unsatisfied. -/
theorem evaluate_ne_unsatisfied (hpolicy : G.policy g = .oneOf) {p : ParcelId}
    (hp : p ∈ G.members g) (hsel : p ∈ run.selection) :
    G.evaluate reading g true run.selection ≠ .unsatisfied := by
  have hmem : p ∈ G.selectedMembers g run.selection := Graph.mem_selectedMembers.2 ⟨hp, hsel⟩
  unfold Graph.evaluate
  rw [hpolicy]
  dsimp only
  cases hselected : G.selectedMembers g run.selection with
  | nil =>
    rw [hselected] at hmem
    cases hmem
  | cons q rest => cases rest <;> simp [Satisfaction.ofCount]

/-- A group has nothing wrong at the end if it is satisfied, or is unsatisfied and has an error
already. -/
theorem errorAtEnd?_eq_none_iff :
    run.errorAtEnd? G reading g = none ↔
      G.Fulfils reading {p | p ∈ run.selection} g ∨
        G.evaluate reading g true run.selection = .unsatisfied ∧ run.hasError g = true := by
  rw [← Graph.isSatisfied_iff, Graph.isSatisfied, beq_iff_eq, errorAtEnd?]
  cases G.evaluate reading g true run.selection <;> simp

/-- An error is one of a decision, or what is wrong with a required group at the end. -/
theorem of_mem_errorsAtEnd {error : ResolutionError} (he : error ∈ run.errorsAtEnd G reading) :
    (∃ g, (g, error) ∈ run.errors) ∨
      ∃ g ∈ run.required, run.errorAtEnd? G reading g = some error := by
  rcases List.mem_append.1 he with hstanding | hjudged
  · obtain ⟨⟨g, _⟩, hkept, rfl⟩ := List.mem_map.1 hstanding
    exact .inl ⟨g, (List.mem_filter.1 hkept).1⟩
  · obtain ⟨g, hkept, hend⟩ := List.mem_filterMap.1 hjudged
    exact .inr ⟨g, List.contains_iff_mem.1 (List.mem_filter.1 hkept).2, hend⟩

/-- **A settled run has no errors** exactly when every required group is satisfied and no decision
ended in an error that is not forgiven. -/
theorem errorsAtEnd_eq_nil_iff (htidy : run.Tidy G) :
    run.errorsAtEnd G reading = [] ↔
      (∀ e ∈ run.errors, run.isSettled G reading e.1 = true ∧ e.2.isForgivable = true) ∧
        ∀ g ∈ run.required, G.Fulfils reading {p | p ∈ run.selection} g := by
  have hstanding : run.standingErrors G reading = [] ↔
      ∀ e ∈ run.errors, run.isSettled G reading e.1 = true ∧ e.2.isForgivable = true := by
    simp [standingErrors, List.filter_eq_nil_iff]
  have hrequired : (G.groupIds.filter (run.required.contains ·)).filterMap
        (run.errorAtEnd? G reading) = [] ↔
      ∀ g ∈ run.required, run.errorAtEnd? G reading g = none := by
    rw [List.filterMap_eq_nil_iff]
    refine forall_congr' fun g => ?_
    rw [List.mem_filter, List.contains_iff_mem]
    exact ⟨fun h hg => h ⟨htidy.required g hg, hg⟩, fun h hg => h hg.2⟩
  rw [errorsAtEnd, List.append_eq_nil_iff, hstanding, hrequired]
  refine and_congr_right fun hforgiven => forall₂_congr fun g _ => ?_
  rw [errorAtEnd?_eq_none_iff]
  refine ⟨fun h => h.elim id fun hfailed => ?_, .inl⟩
  -- an error of the group is forgiven, so the group is satisfied
  obtain ⟨e, he, heq⟩ := List.any_eq_true.1 hfailed.2
  have hsettled := (isSettled_iff.1 (hforgiven e he).1).2
  rwa [beq_iff_eq.1 heq] at hsettled

end Run

/-! ## Success -/

namespace Graph

variable {G : Graph} {policy : Policy} {chooser : Chooser} {m : Manifest}

theorem conclude_eq_ok_iff {run : Run} :
    G.conclude policy run = .ok m ↔
      run.errorsAtEnd G policy.anyOf = [] ∧ m = run.manifest G policy := by
  unfold conclude
  split
  · rename_i hnil
    simp [hnil, eq_comm]
  · rename_i hne
    simp only [reduceCtorEq, false_iff, not_and]
    exact fun hnil => absurd hnil hne

/-- A resolution succeeds with the manifest of a settled run without errors. -/
theorem resolve_eq_ok_iff :
    (G.resolve policy chooser).result = .ok m ↔
      ∃ run, G.settledRun policy chooser = .ok run ∧
        run.errorsAtEnd G policy.anyOf = [] ∧ m = run.manifest G policy := by
  unfold resolve
  split
  · rename_i errors herrors
    simp [herrors]
  · rename_i run hrun
    simp [hrun, conclude_eq_ok_iff]

theorem exchanges_resolve {run : Run} (hrun : G.settledRun policy chooser = .ok run) :
    (G.resolve policy chooser).exchanges = run.exchanges := by
  rw [resolve, hrun]

/-- In the run of a resolution that succeeds every required group is satisfied. -/
theorem fulfils_of_errorsAtEnd {run : Run} (hrun : G.settledRun policy chooser = .ok run)
    (hnone : run.errorsAtEnd G policy.anyOf = []) {g : GroupId} (hg : g ∈ run.required) :
    G.Fulfils policy.anyOf {p | p ∈ run.selection} g :=
  ((Run.errorsAtEnd_eq_nil_iff (passes_of_settledRun hrun).1.tidy).1 hnone).2 g hg

/-- When a resolution succeeds, a selected member of a group that accepts one is the only one. -/
theorem selectedMembers_of_resolve {run : Run} {g : GroupId} {p : ParcelId}
    (hrun : G.settledRun policy chooser = .ok run)
    (hm : (G.resolve policy chooser).result = .ok m) (hg : g ∈ run.required)
    (hpolicy : G.policy g = .oneOf) (hp : p ∈ G.members g) (hsel : p ∈ run.selection) :
    G.selectedMembers g run.selection = [p] := by
  obtain ⟨run', hrun', hnone, -⟩ := resolve_eq_ok_iff.1 hm
  rw [hrun] at hrun'
  cases hrun'
  have hfulfils := fulfils_of_errorsAtEnd hrun hnone hg
  exact selectedMembers_eq_singleton hp hsel ((fulfils_oneOf hpolicy).1 hfulfils)

end Graph

/-- An invoice resolves when it may be used, its graph has no cycle, and the graph resolves. -/
theorem Invoice.resolve_eq_ok_iff {i : Invoice} {policy : Policy} {chooser : Chooser}
    {allowYanked : Bool} {m : Manifest} :
    (i.resolve policy chooser allowYanked).result = .ok m ↔
      ¬(i.yanked ∧ ¬allowYanked) ∧ ({ invoice := i } : Graph).IsAcyclic ∧
        (({ invoice := i } : Graph).resolve policy chooser).result = .ok m := by
  unfold Invoice.resolve
  split
  · rename_i hyanked
    simp [Outcome.refuse, hyanked]
  · rename_i hyanked
    split
    · rename_i error herror
      have hcyclic : ¬({ invoice := i } : Graph).IsAcyclic := by
        intro hacyclic
        rw [Graph.build_eq_ok_iff.2 ⟨rfl, hacyclic⟩] at herror
        cases herror
      simp [Outcome.refuse, hcyclic]
    · rename_i G hbuild
      obtain ⟨rfl, hacyclic⟩ := Graph.build_eq_ok_iff.1 hbuild
      rw [and_iff_right hyanked, and_iff_right hacyclic, Outcome.mapError]
      cases (({ invoice := i } : Graph).resolve policy chooser).result <;> simp [Except.mapError]

namespace Worked

/-- With the first tool there is a utility for the server. -/
def manifest : Manifest where
  invoice := "example/weather/0.1.0"
  parcels := [label "daemon", label "first", label "readme"]
  report := [
    ⟨.global, .allOf, true, .global, true, ["readme"]⟩,
    ⟨.named server, .allOf, true, .optedIn, true, ["daemon"]⟩,
    ⟨.named cli, .oneOf, true, .declared, true, ["first"]⟩,
    ⟨.named utility, .anyOf, true, .requiredBy ["daemon"], true, ["first"]⟩]

theorem resolve_eq : (invoice.resolve policy .takeFirst false).result = .ok manifest := by
  decide +kernel

end Worked

end Bindle
