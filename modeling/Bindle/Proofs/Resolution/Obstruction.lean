import Bindle.Proofs.Resolution.Capacity

/-!
# Why groups are reported unsatisfiable

A group is reported unsatisfiable in two places: when it is decided and no parcel may be selected
for it, and when it is judged in the end. Both times the report says something of the final state.

In a decision each member is ruled out by another group, which is closed: it accepts one parcel, is
required, and has a selected member. That is a different parcel, since the group that is decided
has no selected member. Nothing of this is ever taken back. In the end, a group that takes all of
its members has them, and one that accepts one parcel was decided, so without a selected member it
has the error of its decision already. That leaves the groups of which any number may be selected
and none is. So no error is about a group that takes all of its members, and the global group is
one.

* `Run.IsBlocked`: every member is ruled out; it stays so (`IsBlocked.grows`).
* `Run.IsExplained`: the invariant; each step keeps it (`IsExplained.step`).
* `Run.IsUnsatisfiable`: the two reasons for the report.
* `Graph.resolve_reports_truly`: each report has one of them.
-/

namespace Bindle

namespace Run

variable {G : Graph} {chooser : Chooser} {reading : AnyOfReading} {run next : Run}
  {g g' : GroupId} {p : ParcelId} {name : String} {error : ResolutionError}

/-! ## Blocked groups -/

/-- Every member of the group belongs to another required group that accepts one parcel and has a
different one selected. -/
def IsBlocked (G : Graph) (run : Run) (g : GroupId) : Prop :=
  ∀ p ∈ G.members g, ∃ other ∈ run.required, other ≠ g ∧ G.policy other = .oneOf ∧
    p ∈ G.members other ∧ ∃ q ∈ G.members other, q ∈ run.selection ∧ q ≠ p

/-- A blocked group stays blocked. -/
theorem IsBlocked.grows (h : run.IsBlocked G g) (hgrows : run.Grows next) :
    next.IsBlocked G g := by
  intro p hp
  obtain ⟨other, hrequired, hne, hpolicy, hmem, q, hq, hsel, hdiffer⟩ := h p hp
  exact ⟨other, hgrows.required hrequired, hne, hpolicy, hmem, q, hq,
    hgrows.selection.subset hsel, hdiffer⟩

/-- A group is blocked when no parcel may be selected for it. -/
theorem isBlocked_of_viable_eq_nil (huntaken : ¬run.Takes G g) (hviable : run.viable G g = []) :
    run.IsBlocked G g := by
  intro p hp
  have hnot : p ∉ run.viable G g := by simp [hviable]
  simp only [mem_viable, not_and, not_forall, Bool.not_eq_false] at hnot
  obtain ⟨other, hne, hmem, hclosed⟩ := hnot hp
  obtain ⟨hrequired, hpolicy, q, hq, hsel⟩ := isClosed_iff.1 hclosed
  refine ⟨other, hrequired, hne, hpolicy, hmem, q, hq, hsel, ?_⟩
  rintro rfl
  exact huntaken ⟨q, hp, hsel⟩

/-- A decision reports its own group unsatisfiable, when no parcel may be selected. -/
theorem Decides.unsatisfiable_mem (h : Decides G chooser run g next)
    (he : (g', .unsatisfiable name) ∈ next.errors) :
    (g', .unsatisfiable name) ∈ run.errors ∨ g' = g ∧ run.viable G g = [] := by
  cases h with
  | impossible hviable =>
    rcases List.mem_append.1 he with he | he
    · exact .inl he
    · exact .inr ⟨congrArg Prod.fst (List.mem_singleton.1 he), hviable⟩
  | sole _ => exact .inl he
  | chosen _ _ _ => exact .inl he
  | skipped _ _ =>
    rcases List.mem_append.1 he with he | he
    · exact .inl he
    · cases List.mem_singleton.1 he
  | refused _ _ _ =>
    rcases List.mem_append.1 he with he | he
    · exact .inl he
    · cases List.mem_singleton.1 he

/-! ## What the errors of decisions explain -/

/-- Groups whose decision found them unsatisfiable are blocked, and a group that was decided has a
selected member or an error. -/
structure IsExplained (G : Graph) (run : Run) : Prop where
  blocked : ∀ g name, (g, .unsatisfiable name) ∈ run.errors → run.IsBlocked G g
  decided : ∀ g ∈ run.decided, run.Takes G g ∨ ∃ error, (g, error) ∈ run.errors

theorem IsExplained.of_grows (h : run.IsExplained G) (hgrows : run.Grows next)
    (hdecided : next.decided = run.decided) (herrors : next.errors = run.errors) :
    next.IsExplained G := by
  refine ⟨fun g name he => (h.blocked g name (herrors ▸ he)).grows hgrows, fun g hg => ?_⟩
  rw [herrors]
  exact (h.decided g (hdecided ▸ hg)).imp_left hgrows.takes

theorem IsExplained.decides (h : run.IsExplained G) (hopen : run.IsOpen G g)
    (hdecides : Decides G chooser run g next) : next.IsExplained G := by
  have hgrows := hdecides.grows
  constructor
  · intro g' name he
    rcases hdecides.unsatisfiable_mem he with he | ⟨rfl, hviable⟩
    · exact (h.blocked g' name he).grows hgrows
    · exact (isBlocked_of_viable_eq_nil hopen.untaken hviable).grows hgrows
  · obtain ⟨-, hdecided, houtcome⟩ := hdecides.outcome
    rw [hdecided]
    intro g' hg'
    rcases List.mem_cons.1 hg' with rfl | hg'
    · rcases houtcome with ⟨p, hp, hsel, -⟩ | ⟨error, -, herrors⟩
      · exact .inl ⟨p, (mem_viable.1 hp).1, hsel ▸ List.mem_cons_self⟩
      · exact .inr ⟨error, herrors ▸ List.mem_append_right _ List.mem_cons_self⟩
    · refine (h.decided g' hg').imp hgrows.takes ?_
      rintro ⟨error, he⟩
      exact ⟨error, hgrows.errors.subset he⟩

/-- One step keeps the errors explained. -/
theorem IsExplained.step (h : run.IsExplained G) (hstep : Step G chooser run next) :
    next.IsExplained G := by
  have hgrows := hstep.grows
  cases hstep with
  | pull => exact h.of_grows hgrows rfl rfl
  | decide hopen hdecides => exact h.decides hopen hdecides
  | spread => exact h.of_grows hgrows rfl rfl

theorem isExplained_start (roots : List GroupId) : (start roots).IsExplained G := by
  constructor
  · intro g name he
    cases he
  · intro g hg
    cases hg

/-! ## Reports in the end -/

/-- Why a required group cannot be satisfied. -/
inductive IsUnsatisfiable (G : Graph) (reading : AnyOfReading) (run : Run) (g : GroupId) : Prop
  /-- One of its members has to be selected, and none is. -/
  | bare (hpolicy : G.policy g = .anyOf) (hreading : reading = .atLeastOne)
      (hnone : ∀ p ∈ G.members g, p ∉ run.selection)
  /-- It accepts one of its members, and every one is ruled out. -/
  | blocked (hpolicy : G.policy g = .oneOf) (hblocked : run.IsBlocked G g)

/-- What is reported unsatisfiable in the end is a group of which any number of members may be
selected, and none is. -/
theorem IsExplained.isUnsatisfiable_of_errorAtEnd? (h : run.IsExplained G)
    (hquiet : run.IsQuiet G) (hg : g ∈ run.required)
    (hend : run.errorAtEnd? G reading g = some (.unsatisfiable name)) :
    run.IsUnsatisfiable G reading g := by
  have hnot : ¬(G.Fulfils reading {p | p ∈ run.selection} g ∨
      G.evaluate reading g true run.selection = .unsatisfied ∧ run.hasError g = true) := by
    rw [← errorAtEnd?_eq_none_iff, hend]
    exact Option.some_ne_none _
  cases hpolicy : G.policy g with
  | allOf => exact absurd (.inl (hquiet.fulfils_allOf hg hpolicy)) hnot
  | oneOf =>
    have hunsatisfied : G.evaluate reading g true run.selection = .unsatisfied := by
      unfold errorAtEnd? at hend
      split at hend
      · cases hend
      · assumption
      · cases hend
    have huntaken : ¬run.Takes G g := by
      rintro ⟨p, hp, hsel⟩
      exact evaluate_ne_unsatisfied hpolicy hp hsel hunsatisfied
    -- it was decided, in vain, and so it has an error already
    have hdecided := (hquiet.decided g hg hpolicy).resolve_left huntaken
    obtain ⟨error, he⟩ := (h.decided g hdecided).resolve_left huntaken
    have hfailed : run.hasError g = true := List.any_eq_true.2 ⟨_, he, beq_self_eq_true g⟩
    exact absurd (.inr ⟨hunsatisfied, hfailed⟩) hnot
  | anyOf =>
    have hbare : ¬(reading = .atLeastOne → ∃ p ∈ G.members g, p ∈ run.selection) :=
      fun hfulfils => hnot (.inl ((Graph.fulfils_anyOf hpolicy).2 hfulfils))
    push Not at hbare
    exact .bare hpolicy hbare.1 hbare.2

/-- What a decision reports unsatisfiable is a group that accepts one parcel, and is blocked. -/
theorem IsExplained.isUnsatisfiable_of_mem (h : run.IsExplained G)
    (hrecorded : run.IsRecorded G chooser) (he : (g, .unsatisfiable name) ∈ run.errors) :
    run.IsUnsatisfiable G reading g :=
  .blocked (hrecorded.decided g (hrecorded.errors g _ he).1).2 (h.blocked g name he)

/-- A report that a group is unsatisfiable names a required group, and has a reason. -/
theorem IsExplained.exists_isUnsatisfiable (h : run.IsExplained G)
    (hrecorded : run.IsRecorded G chooser) (hquiet : run.IsQuiet G)
    (he : .unsatisfiable name ∈ run.errorsAtEnd G reading) :
    ∃ g ∈ run.required, G.groupName g = name ∧ run.IsUnsatisfiable G reading g := by
  rcases of_mem_errorsAtEnd he with ⟨g, hmem⟩ | ⟨g, hg, hend⟩
  · have hname := (hrecorded.isOfDecision hmem).group?
    exact ⟨g, hrecorded.mem_required hmem, (Option.some.inj hname).symm,
      h.isUnsatisfiable_of_mem hrecorded hmem⟩
  · exact ⟨g, hg, (Option.some.inj (group?_of_errorAtEnd? hend)).symm,
      h.isUnsatisfiable_of_errorAtEnd? hquiet hg hend⟩

/-- Every error is about a group that does not take all of its members. -/
theorem IsRecorded.exists_group_ne_allOf (h : run.IsRecorded G chooser) (hquiet : run.IsQuiet G)
    (he : error ∈ run.errorsAtEnd G reading) :
    ∃ g ∈ run.required, G.policy g ≠ .allOf ∧ error.group? = some (G.groupName g) := by
  rcases of_mem_errorsAtEnd he with ⟨g, hmem⟩ | ⟨g, hg, hend⟩
  · obtain ⟨hrequired, hpolicy⟩ := h.decided g (h.errors g _ hmem).1
    exact ⟨g, hrequired, by simp [hpolicy], (h.isOfDecision hmem).group?⟩
  · refine ⟨g, hg, fun hpolicy => ?_, group?_of_errorAtEnd? hend⟩
    rw [errorAtEnd?_eq_none_iff.2 (.inl (hquiet.fulfils_allOf hg hpolicy))] at hend
    cases hend

end Run

namespace Graph

variable {G : Graph} {policy : Policy} {chooser : Chooser} {run : Run}

theorem Passes.isExplained (h : G.Passes policy chooser run) : run.IsExplained G :=
  Run.Reaches.preserves (fun hrun hstep => hrun.step hstep) h (Run.isExplained_start _)

/-- **Reports are true.** However the chooser answers, when a resolution reports a group
unsatisfiable, then in the final state either any number of its members may be selected, one has to
be, and none is; or the group accepts one parcel, and each of its members belongs to another
required group that accepts one and has a different one selected. Every error names a group, which
is neither the global one nor another one that takes all of its members. -/
theorem resolve_reports_truly {i : Invoice} (hi : i.IsValid) (hG : Graph.build i = .ok G)
    (hopt : G.DeclaresOptIns policy) (chooser : Chooser) :
    ∃ run, G.settledRun policy chooser = .ok run ∧
      ∀ errors, (G.resolve policy chooser).result = .error errors →
        (∀ name, .unsatisfiable name ∈ errors →
          ∃ g ∈ run.required, G.groupName g = name ∧ run.IsUnsatisfiable G policy.anyOf g) ∧
        ∀ error ∈ errors, ∃ name, error.group? = some name ∧
          ∀ g ∈ G.groupIds, G.groupName g = name → g ≠ .global ∧ G.policy g ≠ .allOf := by
  have hwf := wellFormed_of_build hi hG
  obtain ⟨run, hrun, hpasses, hquiet⟩ := settledRun_eq_ok (build_eq_ok_iff.1 hG).2 hopt chooser
  have hrecorded := hpasses.isRecorded hwf
  refine ⟨run, hrun, fun errors herrors => ?_⟩
  obtain ⟨-, rfl⟩ := (resolve_eq_error_iff hrun).1 herrors
  constructor
  · intro name he
    exact hpasses.isExplained.exists_isUnsatisfiable hrecorded hquiet he
  · intro error he
    obtain ⟨g, hg, hpolicy, hgroup⟩ := hrecorded.exists_group_ne_allOf hquiet he
    refine ⟨G.groupName g, hgroup, fun g' hg' hname => ?_⟩
    rw [groupName_inj hwf hg' (hpasses.tidy.required g hg) hname]
    refine ⟨?_, hpolicy⟩
    rintro rfl
    exact hpolicy policy_global

end Graph

/-- No viewer is left for the crowded desk: the only one is a pager as well, and the suite is the
pager. -/
theorem Worked.reports_crowded :
    ∃ run, Graph.settledRun ⟨crowded⟩ noOptIns .takeLast = .ok run ∧
      ∃ g ∈ run.required, Graph.groupName ⟨crowded⟩ g = "viewer" ∧
        run.IsUnsatisfiable ⟨crowded⟩ .atLeastOne g := by
  have hopt : Graph.DeclaresOptIns ⟨crowded⟩ noOptIns := by
    rw [← Graph.unknownOptIns_eq_nil_iff]
    decide +kernel
  obtain ⟨run, hrun, hreports⟩ :=
    Graph.resolve_reports_truly isValid_crowded build_crowded hopt .takeLast
  exact ⟨run, hrun, (hreports _ resolve_crowded).1 "viewer" List.mem_cons_self⟩

end Bindle
