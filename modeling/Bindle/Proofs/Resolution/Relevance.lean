import Bindle.Proofs.Resolution.Divergence
import Bindle.Proofs.Resolution.Questions

/-!
# Which recorded choices are used

A record of choices is looked up when a question is put, and only for the group that the question
is about. Which groups these are depends on the choices made before; but as long as two records
agree, so do the runs that go by them. So it suffices that the records agree on the groups that
the first run asks about: the runs could only part at a question that both put, and there both
records give the same answer.

An entry for a group that is never asked about is therefore as good as no entry. Such are entries
for groups that nobody declared, that take all or any number of their members, or that are not
required, and entries for groups that come to their member, or to an error, without a question.

* `ChoiceMap.AgreesOn`: two records agree on the groups that some exchanges are about.
* `Graph.settledRun_of_agreesOn`: then the settled runs are the same.
* `Graph.IsIdle`: why no entry for a name is used; `IsIdle.not_asked` says that it is not.
* `Graph.resolve_uses_asked`: the outcome depends on the entries for the groups asked about.
-/

namespace Bindle

/-- Both records have the same entry, or none, for every group that the exchanges are about. -/
def ChoiceMap.AgreesOn (m m' : ChoiceMap) (exchanges : List Exchange) : Prop :=
  ∀ e ∈ exchanges, m'.get? e.question.group.text = m.get? e.question.group.text

/-- Runs part at a question of the first one, so not where the records agree. -/
theorem ChoiceMap.AgreesOn.not_parted {m m' : ChoiceMap} {run run' : Run}
    (h : m.AgreesOn m' run.exchanges) : ¬Run.Parted m.chooser m'.chooser run run' := by
  rintro ⟨earlier, q, hne, hq, -⟩
  have hmem : ⟨q, m.chooser earlier q⟩ ∈ run.exchanges :=
    hq.subset (List.mem_append_right _ List.mem_cons_self)
  have hentry : m'.get? q.group.text = m.get? q.group.text := h _ hmem
  refine hne ?_
  rw [chooser, chooser, hentry]

namespace Graph

variable {G : Graph} {policy : Policy} {chooser chooser' : Chooser} {m m' : ChoiceMap}
  {run : Run} {e : Exchange} {name : String}

/-! ## Runs by records that agree -/

/-- What keeps a run from starting does so whoever is to answer. -/
theorem settledRun_error_congr {errors : List ResolutionError}
    (h : G.settledRun policy chooser = .error errors) :
    G.settledRun policy chooser' = .error errors := by
  rw [settledRun_eq_error_iff] at h ⊢
  exact h

/-- **A run depends on the entries for the groups asked about.** -/
theorem settledRun_of_agreesOn (h : m.AgreesOn m' (G.resolve policy m.chooser).exchanges) :
    G.settledRun policy m'.chooser = G.settledRun policy m.chooser := by
  cases hrun : G.settledRun policy m.chooser with
  | error errors => exact settledRun_error_congr hrun
  | ok run =>
    rw [exchanges_resolve hrun] at h
    obtain ⟨hacyclic, hopt⟩ := of_settledRun_eq_ok hrun
    obtain ⟨run', hrun', -⟩ := settledRun_eq_ok hacyclic hopt m'.chooser
    rcases settledRun_eq_or_parted hrun hrun' with rfl | hparted
    · exact hrun'
    · exact absurd hparted h.not_parted

/-- So does the outcome. -/
theorem resolve_of_agreesOn (h : m.AgreesOn m' (G.resolve policy m.chooser).exchanges) :
    G.resolve policy m'.chooser = G.resolve policy m.chooser := by
  unfold resolve
  rw [settledRun_of_agreesOn h]

/-! ## Entries that are never used -/

/-- Why no entry for a name is used in a resolution. -/
inductive IsIdle (G : Graph) (policy : Policy) (chooser : Chooser) (name : String) : Prop
  /-- No group of that name is declared. -/
  | undeclared (hnone : ∀ group ∈ G.invoice.groups, group.name.text ≠ name)
  /-- The group does not accept just one parcel. -/
  | otherPolicy {g : GroupId} (hname : G.groupName g = name) (hpolicy : G.policy g ≠ .oneOf)
  /-- The group is not required, not even in the end. -/
  | unrequired {g : GroupId} (hname : G.groupName g = name)
      (hend : ∀ run, G.settledRun policy chooser = .ok run → g ∉ run.required)
  /-- Whenever the group has its turn, it has a selected member, or there is at most one that may
  be selected. -/
  | settled {g : GroupId} (hname : G.groupName g = name)
      (hturns : ∀ n state, Run.HasTurn G chooser (G.runAfter policy chooser n) g state →
        state.Takes G g ∨ (state.viable G g).length ≤ 1)

/-- An exchange of a resolution takes place in a state that its run passes through. -/
theorem exists_isAskedIn (he : e ∈ (G.resolve policy chooser).exchanges) :
    ∃ run g state, G.settledRun policy chooser = .ok run ∧
      G.IsAskedIn policy chooser g e state ∧ (state.decide G chooser g).Grows run := by
  cases hrun : G.settledRun policy chooser with
  | error errors =>
    rw [resolve, hrun] at he
    cases he
  | ok run =>
    rw [exchanges_resolve hrun] at he
    obtain ⟨earlier, later, hsplit⟩ := List.append_of_mem he
    have hprefix : earlier ++ [e] <+: run.exchanges := ⟨later, by simp [hsplit]⟩
    obtain ⟨g, state, hasked, -, hgrows⟩ := isTraced_settledRun hrun earlier e hprefix
    exact ⟨run, g, state, rfl, hasked, hgrows⟩

/-- A group that is shown like the one a question is about is that group. -/
theorem Offers.eq_of_groupName (hG : G.invoice.WellFormed) {g g' : GroupId} {q : Question}
    (h : G.Offers g q) (hname : G.groupName g' = q.group.text) : g' = g := by
  have hsame : G.groupRef g' = G.groupRef g :=
    GroupRef.display_inj.1 (hname.trans (groupName_of_groupRef h.group).symm)
  exact eq_of_groupRef_named hG (hsame.trans h.group) h.group

/-- No question is put about a group whose entry is idle. -/
theorem IsIdle.not_asked (hG : G.invoice.WellFormed) (h : G.IsIdle policy chooser name)
    (he : e ∈ (G.resolve policy chooser).exchanges) : e.question.group.text ≠ name := by
  rintro rfl
  obtain ⟨run, g, state, hrun, hasked, hgrows⟩ := exists_isAskedIn he
  have hoffers := hasked.puts.asks.offers
  cases h with
  | undeclared hnone =>
    obtain ⟨group, hgroup, hname⟩ := groupRef_eq_named_iff.1 hoffers.group
    exact hnone group (mem_groups_of_group? hgroup) (congrArg GroupName.text hname)
  | otherPolicy hname hpolicy =>
    rw [hoffers.eq_of_groupName hG hname] at hpolicy
    exact hpolicy hasked.isOpen.oneOf
  | unrequired hname hend =>
    rw [hoffers.eq_of_groupName hG hname] at hend
    have hdecides : Run.Decides G chooser state g (state.decide G chooser g) :=
      Run.decides_decide hasked.isOpen
    exact hend run hrun (hgrows.required (hdecides.grows.required hasked.isOpen.required))
  | settled hname hturns =>
    rw [hoffers.eq_of_groupName hG hname] at hturns
    obtain ⟨n, hturn⟩ := hasked.turn
    rcases hturns n state hturn with htakes | hfew
    · exact hasked.isOpen.untaken htakes
    · exact absurd (Nat.le_trans hasked.puts.asks.1 hfew) (by decide)

/-- **Choices are used only where they are asked for.** When two records agree on every group that
the resolution by the first one asks about, the resolution by the second one puts the same
questions, gets the same answers and has the same result. So it is when they differ in entries
that are idle: those for groups that are not declared, have another policy, are not required, or
are settled without a question. -/
theorem resolve_uses_asked {i : Invoice} (hi : i.IsValid) (hG : Graph.build i = .ok G)
    (policy : Policy) (m m' : ChoiceMap) :
    (m.AgreesOn m' (G.resolve policy m.chooser).exchanges →
      G.resolve policy m'.chooser = G.resolve policy m.chooser) ∧
    ((∀ name, m'.get? name = m.get? name ∨ G.IsIdle policy m.chooser name) →
      G.resolve policy m'.chooser = G.resolve policy m.chooser) := by
  refine ⟨resolve_of_agreesOn, fun hidle => resolve_of_agreesOn fun e he => ?_⟩
  rcases hidle e.question.group.text with hsame | hidle
  · exact hsame
  · exact absurd rfl (hidle.not_asked (wellFormed_of_build hi hG) he)

end Graph

namespace Worked

/-- The first tool, and nothing else. -/
def toolChoice : ChoiceMap := .insert .empty "cli" "first"

/-- The first tool, a parcel of the server and a parcel of a group that nobody declared. -/
def paddedChoices : ChoiceMap := (toolChoice.insert "server" "daemon").insert "nobody" "second"

/-- The tool is asked for, and the two other entries change nothing. -/
theorem resolve_paddedChoices :
    (graph.resolve policy toolChoice.chooser).exchanges.map (·.question.group) = [cli] ∧
      toolChoice.AgreesOn paddedChoices (graph.resolve policy toolChoice.chooser).exchanges ∧
      (∀ name, paddedChoices.get? name = toolChoice.get? name ∨
        graph.IsIdle policy toolChoice.chooser name) ∧
      graph.resolve policy paddedChoices.chooser = graph.resolve policy toolChoice.chooser := by
  have hagrees :
      toolChoice.AgreesOn paddedChoices (graph.resolve policy toolChoice.chooser).exchanges := by
    unfold ChoiceMap.AgreesOn
    decide +kernel
  have hidle : ∀ name, paddedChoices.get? name = toolChoice.get? name ∨
      graph.IsIdle policy toolChoice.chooser name := by
    intro name
    by_cases hserver : name = "server"
    · exact .inr (.otherPolicy (g := ⟨1⟩) hserver.symm (by decide +kernel))
    · by_cases hnobody : name = "nobody"
      · subst hnobody
        exact .inr (.undeclared (by decide +kernel))
      · left
        rw [paddedChoices, StringMap.get?_insert, if_neg hnobody, StringMap.get?_insert,
          if_neg hserver]
  exact ⟨by decide +kernel, hagrees, hidle,
    (Graph.resolve_uses_asked isValid build_eq policy toolChoice paddedChoices).2 hidle⟩

end Worked

end Bindle
