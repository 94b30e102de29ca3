import Bindle.Proofs.Graph.Acyclicity
import Bindle.Proofs.Resolution.Steps
import Bindle.Resolution.Outcome
import Mathlib.Logic.Function.Iterate

/-!
# Runs settle

A pass that changes the size of neither set changes neither set, and then the run is quiet: every
parcel that would be pulled in is selected, every group that would be decided was, and every group
that would become required is. A pass that is not the last selects a parcel that was not selected
before, because without a new parcel no group becomes required; so the parcels of the graph bound
the passes, and the limit on passes is never met.

* `Run.Tidy`: what is required and selected are nodes of the graph, each parcel selected once.
* `Run.IsQuiet`: nothing is left to do.
* `Run.SettlesAt`: which pass is the last; `settle_eq_ok_iff` says that the loop stops after it.
* `settle_eq_ok`: a run ends quiet, after fewer passes than the limit.
* `settledRun_eq_ok`: so the run of a graph without a cycle ends quiet, whatever is answered.
* `settledRun_eq_error_iff`: what keeps a run from starting.
-/

namespace Bindle

namespace Run

variable {G : Graph} {chooser : Chooser} {run next : Run} {g : GroupId} {p : ParcelId}

/-! ## Tidy states -/

/-- The groups required and the parcels selected are those of the graph, no parcel twice. -/
structure Tidy (G : Graph) (run : Run) : Prop where
  required : ∀ g ∈ run.required, g ∈ G.groupIds
  selection : ∀ p ∈ run.selection, p ∈ G.parcelIds
  nodup : run.selection.Nodup

theorem Tidy.pull (h : run.Tidy G) : (run.select (run.pulled G)).Tidy G := by
  refine ⟨h.required, fun p hp => ?_, ?_⟩
  · rcases List.mem_append.1 hp with hp | hp
    · exact (List.mem_filter.1 hp).1
    · exact h.selection p hp
  · refine List.nodup_append.2 ⟨Graph.nodup_parcelIds.filter _, h.nodup, fun p hp q hq heq => ?_⟩
    exact (mem_pulled.1 hp).1 (heq ▸ hq)

theorem Tidy.decides (h : run.Tidy G) (hopen : run.IsOpen G g)
    (hdecides : Decides G chooser run g next) : next.Tidy G := by
  obtain ⟨hrequired, -, ⟨p, hp, hsel, -⟩ | ⟨error, hsel, -⟩⟩ := hdecides.outcome
  · have hmem : p ∈ G.members g := (mem_viable.1 hp).1
    have hnew : p ∉ run.selection := fun hp' => hopen.untaken ⟨p, hmem, hp'⟩
    refine ⟨hrequired ▸ h.required, ?_, hsel ▸ List.nodup_cons.2 ⟨hnew, h.nodup⟩⟩
    rw [hsel]
    intro q hq
    rcases List.mem_cons.1 hq with rfl | hq
    · exact Graph.mem_parcelIds_of_holds (Graph.mem_members.1 hmem)
    · exact h.selection q hq
  · exact ⟨hrequired ▸ h.required, hsel ▸ h.selection, hsel ▸ h.nodup⟩

theorem Tidy.step (h : run.Tidy G) (hstep : Step G chooser run next) : next.Tidy G := by
  cases hstep with
  | pull => exact h.pull
  | decide hopen hdecides => exact h.decides hopen hdecides
  | spread =>
    refine ⟨fun g hg => ?_, h.selection, h.nodup⟩
    rcases mem_spread_required.1 hg with hg | ⟨p, -, hneeds⟩
    · exact h.required g hg
    · exact Graph.mem_groupIds_of_needs hneeds

theorem Tidy.reaches (h : run.Tidy G) (hreach : Reaches G chooser run next) : next.Tidy G :=
  hreach.preserves Tidy.step h

theorem Tidy.length_le (h : run.Tidy G) : run.selection.length ≤ G.parcelCount := by
  rw [← Graph.length_parcelIds]
  exact h.nodup.length_le_of_subset h.selection

/-! ## Quiet states -/

/-- Every group that a selected parcel requires is required. -/
def IsSpread (G : Graph) (run : Run) : Prop :=
  ∀ p ∈ run.selection, ∀ g, G.needs p g = true → g ∈ run.required

/-- Nothing is left to pull in, to decide or to require. -/
structure IsQuiet (G : Graph) (run : Run) : Prop where
  pulled : ∀ g ∈ run.required, G.policy g = .allOf → ∀ p ∈ G.members g, p ∈ run.selection
  decided : ∀ g ∈ run.required, G.policy g = .oneOf → run.Meets G g
  spread : run.IsSpread G

theorem isSpread_spread (run : Run) : (run.spread G).IsSpread G :=
  fun p hp _ hneeds => mem_spread_required.2 (.inr ⟨p, hp, hneeds⟩)

theorem isSpread_pass : (run.pass G chooser).IsSpread G := by
  unfold pass
  split
  · exact isSpread_spread _
  · exact isSpread_spread _

/-- Requiring what is required already changes nothing. -/
theorem spread_eq_self (h : run.IsSpread G) : run.spread G = run := by
  have hnone :
      (G.groupIds.filter fun g => !run.required.contains g && run.isCalledFor G g) = [] := by
    rw [List.filter_eq_nil_iff]
    intro g _ hg
    rw [Bool.and_eq_true, mem_calledFor] at hg
    obtain ⟨hnew, p, hp, hneeds⟩ := hg
    have hmem := h p hp g hneeds
    simp [hmem] at hnew
  unfold spread
  rw [hnone, List.append_nil]

theorem selection_decideAll_suffix : run.selection <:+ (run.decideAll G chooser).selection :=
  reaches_decideAll.1.grows.selection

/-- A pass that selects nothing only decides. -/
theorem pass_eq_decideAll (hspread : run.IsSpread G)
    (hlen : (run.pass G chooser).selection.length = run.selection.length) :
    run.pulled G = [] ∧ run.pass G chooser = run.decideAll G chooser ∧
      (run.pass G chooser).selection = run.selection := by
  cases hpulled : run.pulled G with
  | cons p ps =>
    have hpass : run.pass G chooser = (run.select (p :: ps)).spread G := by
      rw [pass, hpulled]
    rw [hpass] at hlen
    simp only [spread, select, List.length_append, List.length_cons] at hlen
    omega
  | nil =>
    have hpass : run.pass G chooser = (run.decideAll G chooser).spread G := by
      rw [pass, hpulled]
    have hsel : (run.decideAll G chooser).selection = run.selection := by
      rw [hpass] at hlen
      exact (selection_decideAll_suffix.eq_of_length hlen.symm).symm
    have hstays : (run.decideAll G chooser).IsSpread G := by
      intro q hq g hneeds
      rw [hsel] at hq
      exact reaches_decideAll.1.grows.required (hspread q hq g hneeds)
    rw [spread_eq_self hstays] at hpass
    exact ⟨rfl, hpass, hpass ▸ hsel⟩

/-- A pass that selects nothing leaves nothing to do. -/
theorem isQuiet_pass (htidy : run.Tidy G) (hspread : run.IsSpread G)
    (hlen : (run.pass G chooser).selection.length = run.selection.length) :
    (run.pass G chooser).IsQuiet G := by
  obtain ⟨hpulled, hpass, hsel⟩ := pass_eq_decideAll hspread hlen
  obtain ⟨hreach, hrequired, hmeets⟩ : Reaches G chooser run (run.decideAll G chooser) ∧ _ :=
    reaches_decideAll
  refine ⟨?_, ?_, isSpread_pass⟩
  · rw [hsel, hpass, hrequired]
    intro g hg hpolicy p hp
    by_contra hnew
    have hmem : p ∈ run.pulled G := mem_pulled.2 ⟨hnew, g, hg, hpolicy, hp⟩
    rw [hpulled] at hmem
    cases hmem
  · rw [hpass, hrequired]
    intro g hg hpolicy
    by_cases hdecided : g ∈ run.decided
    · exact hreach.grows.meets (.inr hdecided)
    · exact hmeets g (mem_pending.2 ⟨htidy.required g hg, hg, hpolicy, hdecided⟩)

/-! ## Settling -/

theorem sameSize_iff :
    run.sameSize next = true ↔ next.required.length = run.required.length ∧
      next.selection.length = run.selection.length := by
  simp [sameSize]

/-- A pass that selects nothing changes the size of neither set. -/
theorem sameSize_pass_iff (hspread : run.IsSpread G) :
    run.sameSize (run.pass G chooser) = true ↔
      (run.pass G chooser).selection.length = run.selection.length := by
  rw [sameSize_iff]
  refine ⟨fun h => h.2, fun h => ⟨?_, h⟩⟩
  rw [(pass_eq_decideAll hspread h).2.1, reaches_decideAll.2.1]

/-- The pass that follows so many others is the last: it changes the size of neither set, and each
of the others changed that of one. -/
structure SettlesAt (G : Graph) (chooser : Chooser) (run : Run) (n : Nat) : Prop where
  goesOn : ∀ k < n,
    ((pass G chooser)^[k] run).sameSize ((pass G chooser)^[k + 1] run) = false
  stops : ((pass G chooser)^[n] run).sameSize ((pass G chooser)^[n + 1] run) = true

theorem settlesAt_zero_iff :
    run.SettlesAt G chooser 0 ↔ run.sameSize (run.pass G chooser) = true :=
  ⟨fun h => h.stops, fun h => ⟨fun _ hk => absurd hk (Nat.not_lt_zero _), h⟩⟩

/-- A run goes on for one more pass than from its next state. -/
theorem settlesAt_succ_iff {n : Nat} :
    run.SettlesAt G chooser (n + 1) ↔
      run.sameSize (run.pass G chooser) = false ∧ (run.pass G chooser).SettlesAt G chooser n := by
  constructor
  · intro h
    refine ⟨h.goesOn 0 n.succ_pos, fun k hk => ?_, h.stops⟩
    exact h.goesOn (k + 1) (Nat.succ_lt_succ hk)
  · rintro ⟨hdiffer, h⟩
    refine ⟨fun k hk => ?_, h.stops⟩
    cases k with
    | zero => exact hdiffer
    | succ k => exact h.goesOn k (Nat.lt_of_succ_lt_succ hk)

theorem SettlesAt.not_lt {m n : Nat} (hm : run.SettlesAt G chooser m)
    (hn : run.SettlesAt G chooser n) : ¬m < n := by
  intro hlt
  have hdiffer := hn.goesOn m hlt
  rw [hm.stops] at hdiffer
  cases hdiffer

/-- There is one last pass. -/
theorem SettlesAt.unique {m n : Nat} (hm : run.SettlesAt G chooser m)
    (hn : run.SettlesAt G chooser n) : m = n := by
  have hle := hm.not_lt hn
  have hge := hn.not_lt hm
  omega

/-- The loop ends normally when one of the passes allowed is the last, and then right after it. -/
theorem settle_eq_ok_iff {fuel : Nat} {last : Run} :
    run.settle G chooser fuel = .ok last ↔
      ∃ n < fuel, run.SettlesAt G chooser n ∧ last = (pass G chooser)^[n + 1] run := by
  induction fuel generalizing run with
  | zero => simp [settle]
  | succ fuel ih =>
    rw [settle]
    split
    · rename_i hsame
      have hzero : run.SettlesAt G chooser 0 := settlesAt_zero_iff.2 hsame
      constructor
      · intro h
        exact ⟨0, fuel.succ_pos, hzero, (Except.ok.inj h).symm⟩
      · rintro ⟨n, -, hsettles, rfl⟩
        rw [hsettles.unique hzero]
        rfl
    · rename_i hdiffer
      rw [ih]
      constructor
      · rintro ⟨n, hn, hsettles, rfl⟩
        have hnext := settlesAt_succ_iff.2 ⟨Bool.eq_false_iff.2 hdiffer, hsettles⟩
        exact ⟨n + 1, Nat.succ_lt_succ hn, hnext, rfl⟩
      · rintro ⟨n, hn, hsettles, rfl⟩
        cases n with
        | zero => exact absurd (settlesAt_zero_iff.1 hsettles) hdiffer
        | succ n =>
          have hnext := (settlesAt_succ_iff.1 hsettles).2
          exact ⟨n, Nat.lt_of_succ_lt_succ hn, hnext, rfl⟩

/-- **Runs settle.** With more passes allowed than there are parcels left to select, a run ends,
and it ends quiet. -/
theorem settle_eq_ok {fuel : Nat} (htidy : run.Tidy G) (hspread : run.IsSpread G)
    (hfuel : G.parcelCount < fuel + run.selection.length) :
    ∃ last, run.settle G chooser fuel = .ok last ∧ Reaches G chooser run last ∧
      last.IsQuiet G := by
  induction fuel generalizing run with
  | zero =>
    have hle := htidy.length_le
    omega
  | succ fuel ih =>
    rw [settle]
    split
    · rename_i hsame
      have hlen := (sameSize_pass_iff hspread).1 hsame
      exact ⟨_, rfl, reaches_pass, isQuiet_pass htidy hspread hlen⟩
    · rename_i hdiffer
      have hne : (run.pass G chooser).selection.length ≠ run.selection.length :=
        fun hlen => hdiffer ((sameSize_pass_iff hspread).2 hlen)
      have hle : run.selection.length ≤ (run.pass G chooser).selection.length :=
        reaches_pass.grows.selection.length_le
      have hmore : G.parcelCount < fuel + (run.pass G chooser).selection.length := by omega
      obtain ⟨last, hlast, hreach, hquiet⟩ :=
        ih (htidy.reaches reaches_pass) isSpread_pass hmore
      exact ⟨last, hlast, reaches_pass.trans hreach, hquiet⟩

end Run

/-! ## The run of a graph -/

namespace Graph

variable {G : Graph} {policy : Policy} {g : GroupId}

/-- Every group that the caller opts into is declared. -/
def DeclaresOptIns (G : Graph) (policy : Policy) : Prop :=
  ∀ name ∈ policy.optedIn, ∃ group ∈ G.invoice.groups, group.name.text = name

theorem groupId?_isNone_iff {name : String} :
    (G.groupId? name).isNone = true ↔ ∀ group ∈ G.invoice.groups, group.name.text ≠ name := by
  simp [groupId?]

theorem unknownOptIns_eq_nil_iff : G.unknownOptIns policy = [] ↔ G.DeclaresOptIns policy := by
  rw [unknownOptIns, List.map_eq_nil_iff, List.filter_eq_nil_iff]
  refine forall₂_congr fun name _ => ?_
  rw [groupId?_isNone_iff]
  simp

/-- The caller opts into a group by its name. -/
theorem mem_optedIn_iff (hG : G.invoice.WellFormed) :
    g ∈ G.optedIn policy ↔
      ∃ group, G.group? g = some group ∧ group.name.text ∈ policy.optedIn := by
  rw [optedIn, List.mem_filterMap]
  constructor
  · rintro ⟨name, hname, hfound⟩
    obtain ⟨group, hgroup, rfl⟩ := (groupId?_eq_some_iff hG).1 hfound
    exact ⟨group, hgroup, hname⟩
  · rintro ⟨group, hgroup, hname⟩
    exact ⟨_, hname, (groupId?_eq_some_iff hG).2 ⟨group, hgroup, rfl⟩⟩

theorem mem_initiallyRequired_iff :
    g ∈ G.initiallyRequired policy ↔
      g ∈ G.groupIds ∧ (G.isRootRequired g = true ∨ g ∈ G.optedIn policy) := by
  simp [initiallyRequired]

theorem mem_initiallyRequired_sub (hg : g ∈ G.initiallyRequired policy) : g ∈ G.groupIds :=
  (List.mem_filter.1 hg).1

theorem tidy_start : (Run.start (G.initiallyRequired policy)).Tidy G :=
  ⟨fun _ => mem_initiallyRequired_sub, by simp [Run.start], by simp [Run.start]⟩

theorem isSpread_start : (Run.start (G.initiallyRequired policy)).IsSpread G :=
  fun _ hp => absurd hp List.not_mem_nil

/-- The states that a run of the graph passes through. -/
def Passes (G : Graph) (policy : Policy) (chooser : Chooser) (run : Run) : Prop :=
  Run.Reaches G chooser (Run.start (G.initiallyRequired policy)) run

theorem Passes.tidy {chooser : Chooser} {run : Run} (h : G.Passes policy chooser run) :
    run.Tidy G :=
  tidy_start.reaches h

/-- **The run of a graph without a cycle settles**, whatever the chooser answers. -/
theorem settledRun_eq_ok (hG : G.IsAcyclic) (hopt : G.DeclaresOptIns policy) (chooser : Chooser) :
    ∃ run, G.settledRun policy chooser = .ok run ∧ G.Passes policy chooser run ∧
      run.IsQuiet G := by
  unfold settledRun
  rw [cycleNames_eq_none_iff.2 hG, unknownOptIns_eq_nil_iff.2 hopt]
  have hfuel : G.parcelCount < G.passLimit +
      (Run.start (G.initiallyRequired policy)).selection.length := by
    simp only [passLimit]
    omega
  exact Run.settle_eq_ok tidy_start isSpread_start hfuel

/-- A run that settled is one of a graph without a cycle, and all opt-ins are declared. -/
theorem of_settledRun_eq_ok {chooser : Chooser} {run : Run}
    (h : G.settledRun policy chooser = .ok run) : G.IsAcyclic ∧ G.DeclaresOptIns policy := by
  unfold settledRun at h
  split at h
  · cases h
  · rename_i hnone
    split at h
    · rename_i hopt
      exact ⟨cycleNames_eq_none_iff.1 hnone, unknownOptIns_eq_nil_iff.1 hopt⟩
    · cases h

/-- What keeps a run from starting is a cycle, or an opt-in that nobody declared. -/
theorem settledRun_eq_error_iff {chooser : Chooser} {errors : List ResolutionError} :
    G.settledRun policy chooser = .error errors ↔
      (∃ names, G.cycleNames = some names ∧ errors = [.cycle names]) ∨
        G.IsAcyclic ∧ ¬G.DeclaresOptIns policy ∧ errors = G.unknownOptIns policy := by
  rw [← cycleNames_eq_none_iff, ← unknownOptIns_eq_nil_iff]
  cases hcycle : G.cycleNames with
  | some names =>
    have herror : G.settledRun policy chooser = .error [.cycle names] := by
      rw [settledRun, hcycle]
    rw [herror]
    simp [eq_comm (a := errors)]
  | none =>
    cases hopts : G.unknownOptIns policy with
    | nil =>
      have hopt := unknownOptIns_eq_nil_iff.1 hopts
      obtain ⟨run, hrun, -⟩ := settledRun_eq_ok (cycleNames_eq_none_iff.1 hcycle) hopt chooser
      simp [hrun]
    | cons first rest =>
      have herror : G.settledRun policy chooser = .error (first :: rest) := by
        rw [settledRun, hcycle, hopts]
      rw [herror]
      simp [eq_comm (a := errors)]

/-- Opt-ins that nobody declared are reported, and nothing else is. -/
theorem resolve_of_not_declaresOptIns (hG : G.IsAcyclic) (hopt : ¬G.DeclaresOptIns policy)
    (chooser : Chooser) : (G.resolve policy chooser).result = .error (G.unknownOptIns policy) := by
  rw [resolve, settledRun_eq_error_iff.2 (.inr ⟨hG, hopt, rfl⟩)]

theorem exists_of_mem_unknownOptIns {error : ResolutionError} (h : error ∈ G.unknownOptIns policy) :
    ∃ name, error = .unknownGroup name := by
  obtain ⟨name, -, hname⟩ := List.mem_map.1 h
  exact ⟨name, hname.symm⟩

theorem settle_of_settledRun {chooser : Chooser} {run : Run}
    (h : G.settledRun policy chooser = .ok run) :
    (Run.start (G.initiallyRequired policy)).settle G chooser G.passLimit = .ok run := by
  unfold settledRun at h
  split at h
  · cases h
  · split at h
    · exact h
    · cases h

/-- A run that settled passed through its last state, which is quiet. -/
theorem passes_of_settledRun {chooser : Chooser} {run : Run}
    (h : G.settledRun policy chooser = .ok run) : G.Passes policy chooser run ∧ run.IsQuiet G := by
  obtain ⟨hG, hopt⟩ := of_settledRun_eq_ok h
  obtain ⟨run', hrun', hpasses, hquiet⟩ := settledRun_eq_ok hG hopt chooser
  rw [h] at hrun'
  cases hrun'
  exact ⟨hpasses, hquiet⟩

end Graph

/-- The caller wants the server, and a utility for it. -/
def Worked.policy : Policy where
  optedIn := .ofList ["server"]
  anyOf := .atLeastOne

theorem Worked.declaresOptIns : Worked.graph.DeclaresOptIns Worked.policy := by
  rw [← Graph.unknownOptIns_eq_nil_iff]
  decide +kernel

end Bindle
