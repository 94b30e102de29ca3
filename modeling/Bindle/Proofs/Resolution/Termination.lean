import Bindle.Proofs.Resolution.Accounts
import Bindle.Proofs.Resolution.Questions

/-!
# How many passes a run takes

The loop of a run stops when a pass leaves the sizes of both sets as they are. A pass that pulls
nothing in and picks nothing cannot make a group required, since what the selection requires was
required before; and what it does pull in or pick was not selected. So each pass but the last
selects a new parcel, and there are no more passes than parcels, and one.

The limit on passes is larger than that. What happens beyond it, an error that reports a cycle,
never does: of the other errors of a resolution each is about a single group.

* `Run.exists_new`: a pass that is not the last selects a new parcel.
* `Graph.exists_settlesAt`: the last pass comes in time.
* `Graph.exists_group_of_resolve`: an error of a resolution is about a group.
* `Graph.resolve_terminates`: the loop ends normally, whatever is answered.
-/

namespace Bindle

/-- A pass that is not the last selects a parcel that was not selected. -/
theorem Run.exists_new {G : Graph} {chooser : Chooser} {run : Run} (htidy : run.Tidy G)
    (hspread : run.IsSpread G) (hdiffer : run.sameSize (run.pass G chooser) = false) :
    ∃ p ∈ (run.pass G chooser).selection, p ∉ run.selection := by
  by_contra hnone
  push Not at hnone
  have hnodup : (run.pass G chooser).selection.Nodup := (htidy.reaches reaches_pass).nodup
  have hmore : run.selection.length ≤ (run.pass G chooser).selection.length :=
    reaches_pass.grows.selection.length_le
  have hless : (run.pass G chooser).selection.length ≤ run.selection.length :=
    hnodup.length_le_of_subset hnone
  have hsame := (sameSize_pass_iff hspread).2 (Nat.le_antisymm hless hmore)
  rw [hdiffer] at hsame
  cases hsame

namespace Graph

variable {G : Graph} {policy : Policy} {chooser : Chooser}

/-! ## The states of a run -/

theorem runAfter_succ (n : Nat) :
    G.runAfter policy chooser (n + 1) = (G.runAfter policy chooser n).pass G chooser :=
  Function.iterate_succ_apply' _ _ _

theorem passes_runAfter (n : Nat) : G.Passes policy chooser (G.runAfter policy chooser n) := by
  induction n with
  | zero => exact .refl
  | succ n ih =>
    rw [runAfter_succ]
    exact ih.trans Run.reaches_pass

theorem isSpread_runAfter (n : Nat) : (G.runAfter policy chooser n).IsSpread G := by
  cases n with
  | zero => exact isSpread_start
  | succ n =>
    rw [runAfter_succ]
    exact Run.isSpread_pass

/-- The last pass comes before there are more passes than parcels, and one. -/
theorem exists_settlesAt (G : Graph) (policy : Policy) (chooser : Chooser) :
    ∃ n ≤ G.parcelCount, (Run.start (G.initiallyRequired policy)).SettlesAt G chooser n := by
  have hfuel : G.parcelCount < (G.parcelCount + 1) +
      (Run.start (G.initiallyRequired policy)).selection.length := by omega
  obtain ⟨last, hlast, -⟩ := Run.settle_eq_ok tidy_start isSpread_start hfuel
  obtain ⟨n, hn, hsettles, -⟩ := Run.settle_eq_ok_iff.1 hlast
  exact ⟨n, Nat.le_of_lt_succ hn, hsettles⟩

/-! ## Errors -/

/-- An error of a resolution is about a group, unless there is a cycle. -/
theorem exists_group_of_resolve (hwf : G.invoice.WellFormed) (hacyclic : G.IsAcyclic)
    {errors : List ResolutionError} (h : (G.resolve policy chooser).result = .error errors)
    {error : ResolutionError} (he : error ∈ errors) : ∃ group, error.group? = some group := by
  by_cases hopt : G.DeclaresOptIns policy
  · obtain ⟨run, hrun, hpasses, -⟩ := settledRun_eq_ok hacyclic hopt chooser
    obtain ⟨-, rfl⟩ := (resolve_eq_error_iff hrun).1 h
    obtain ⟨g, -, hgroup⟩ := Run.exists_group_of_mem_errorsAtEnd (hpasses.isRecorded hwf) he
    exact ⟨_, hgroup⟩
  · rw [resolve_of_not_declaresOptIns hacyclic hopt] at h
    rw [← Except.error.inj h] at he
    obtain ⟨name, rfl⟩ := exists_of_mem_unknownOptIns he
    exact ⟨name, rfl⟩

/-! ## The loop -/

/-- **Runs terminate in time.** Whatever groups the caller opts into and whatever the chooser
answers, each pass but the last selects a parcel that was not selected before, and the last comes
before there are more passes than parcels, and one. So the loop ends normally within its limit,
and no resolution ends in an error that reports a cycle. -/
theorem resolve_terminates {i : Invoice} (hi : i.IsValid) (hG : Graph.build i = .ok G)
    (policy : Policy) (chooser : Chooser) :
    (∃ n ≤ G.parcelCount,
      (Run.start (G.initiallyRequired policy)).SettlesAt G chooser n ∧
      (∀ k < n, ∃ p ∈ (G.runAfter policy chooser (k + 1)).selection,
        p ∉ (G.runAfter policy chooser k).selection) ∧
      (Run.start (G.initiallyRequired policy)).settle G chooser G.passLimit =
        .ok (G.runAfter policy chooser (n + 1))) ∧
    ∀ errors, (G.resolve policy chooser).result = .error errors →
      ∀ names, .cycle names ∉ errors := by
  constructor
  · obtain ⟨n, hn, hsettles⟩ := exists_settlesAt G policy chooser
    refine ⟨n, hn, hsettles, fun k hk => ?_, ?_⟩
    · have hdiffer := hsettles.goesOn k hk
      rw [← runAfter, ← runAfter, runAfter_succ] at hdiffer
      rw [runAfter_succ]
      exact Run.exists_new (passes_runAfter k).tidy (isSpread_runAfter k) hdiffer
    · have hlimit : n < G.passLimit := by
        rw [passLimit]
        omega
      exact Run.settle_eq_ok_iff.2 ⟨n, hlimit, hsettles, rfl⟩
  · intro errors herrors names hcycle
    have hwf := wellFormed_of_build hi hG
    obtain ⟨group, hgroup⟩ :=
      exists_group_of_resolve hwf (build_eq_ok_iff.1 hG).2 herrors hcycle
    cases hgroup

end Graph

/-- A tool is asked for that is no candidate, and still the loop ends in time. -/
theorem Worked.terminates_refused :
    graph.parcelCount = 6 ∧ ∃ n ≤ 6,
      (Run.start (graph.initiallyRequired policy)).SettlesAt graph (.inOrder [some "third"]) n := by
  obtain ⟨⟨n, hn, hsettles, -⟩, -⟩ :=
    Graph.resolve_terminates isValid build_eq policy (.inOrder [some "third"])
  exact ⟨rfl, n, hn, hsettles⟩

end Bindle
