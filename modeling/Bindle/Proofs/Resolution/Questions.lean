import Bindle.Proofs.Resolution.Records
import Bindle.Proofs.Resolution.Verdict

/-!
# What a chooser is asked

A chooser may answer as it likes, and answer one question by what it was asked before. Still it is
asked about each group at most once, and only when the group has its turn in a pass that pulled in
nothing, is required, and has no selected member. What the chooser answers is done to the letter: a
candidate that it names is selected and stays so, and any other answer selects nothing.

The steps of a run say which states it could pass through. Here the states are those that it does
pass through, turn by turn, so that each exchange is traced back to one of them.

* `Run.HasTurn`: the state in which a group is decided; a group waits until then
  (`HasTurn.waits`).
* `Graph.IsAskedIn`: an exchange takes place in a state of the run of a graph.
* `Run.IsTraced`: every exchange took place in such a state; each turn keeps it
  (`IsTraced.decide`), so each pass does, and it holds for a settled run (`isTraced_settledRun`).
* `Graph.IsOrderly`, `Graph.resolve_asks_orderly`: what holds of every exchange of a resolution.
-/

namespace Bindle

namespace Run

variable {G : Graph} {chooser : Chooser} {policy : Policy} {run next state : Run} {g : GroupId}

/-! ## Turns -/

/-- The group has its turn in a pass from the first state, and is then decided in the second. -/
def HasTurn (G : Graph) (chooser : Chooser) (run : Run) (g : GroupId) (state : Run) : Prop :=
  run.pulled G = [] ∧ ∃ before after, run.pending G = before ++ g :: after ∧
    state = before.foldl (·.decide G chooser) run

theorem waits_foldl_decide {before after : List GroupId} (hnodup : (before ++ after).Nodup)
    (hwait : ∀ g ∈ before ++ after, run.Waits G g) :
    ∀ g ∈ after, (before.foldl (·.decide G chooser) run).Waits G g := by
  induction before generalizing run with
  | nil => exact hwait
  | cons g rest ih =>
    obtain ⟨hg, hrest⟩ := List.nodup_cons.1 hnodup
    refine ih hrest fun g' hg' => ?_
    have hwait' := hwait g' (List.mem_cons_of_mem _ hg')
    exact (hwait g List.mem_cons_self).decide hwait' fun heq => hg (heq ▸ hg')

/-- A group waits until it has its turn. -/
theorem HasTurn.waits (h : HasTurn G chooser run g state) : state.Waits G g := by
  obtain ⟨-, before, after, hpending, rfl⟩ := h
  have hnodup : (run.pending G).Nodup := Graph.nodup_groupIds.filter _
  rw [hpending] at hnodup
  refine waits_foldl_decide hnodup (fun g' hg' => ?_) g List.mem_cons_self
  exact (mem_pending.1 (hpending ▸ hg')).2

end Run

/-! ## Where exchanges take place -/

/-- The state of a graph's run after so many passes. -/
def Graph.runAfter (G : Graph) (policy : Policy) (chooser : Chooser) (n : Nat) : Run :=
  (Run.pass G chooser)^[n] (Run.start (G.initiallyRequired policy))

/-- The exchange takes place in a state of the run of a graph: the group has its turn then, has no
selected member, and the question is put for it. -/
structure Graph.IsAskedIn (G : Graph) (policy : Policy) (chooser : Chooser) (g : GroupId)
    (e : Exchange) (state : Run) : Prop where
  turn : ∃ n, Run.HasTurn G chooser (G.runAfter policy chooser n) g state
  isOpen : state.IsOpen G g
  puts : Run.Puts G chooser state g e (state.decide G chooser g)

namespace Run

variable {G : Graph} {chooser : Chooser} {policy : Policy} {run next state : Run} {g : GroupId}
  {n : Nat}

/-- Every exchange took place in a state of the run, after the exchanges before it. -/
def IsTraced (G : Graph) (policy : Policy) (chooser : Chooser) (run : Run) : Prop :=
  ∀ earlier e, earlier ++ [e] <+: run.exchanges →
    ∃ g state, G.IsAskedIn policy chooser g e state ∧ state.exchanges = earlier ∧
      (state.decide G chooser g).Grows run

theorem IsTraced.of_grows (h : run.IsTraced G policy chooser) (hgrows : run.Grows next)
    (hexchanges : next.exchanges = run.exchanges) : next.IsTraced G policy chooser := by
  intro earlier e he
  obtain ⟨g, state, hasked, hearlier, hstate⟩ := h earlier e (hexchanges ▸ he)
  exact ⟨g, state, hasked, hearlier, hstate.trans hgrows⟩

/-- A decision keeps every exchange traced: a new one took place just now. -/
theorem IsTraced.decide (h : state.IsTraced G policy chooser)
    (hturn : HasTurn G chooser (G.runAfter policy chooser n) g state) :
    (state.decide G chooser g).IsTraced G policy chooser := by
  rcases hturn.waits.takes_or_isOpen with htakes | hopen
  · rw [decide_of_takes htakes]
    exact h
  · have hdecides : Decides G chooser state g (state.decide G chooser g) := decides_decide hopen
    rcases hdecides.puts_or_silent with ⟨new, hputs⟩ | hsilent
    · intro earlier e he
      rw [hputs.exchanges] at he
      rcases List.prefix_concat_iff.1 he with heq | he
      · obtain ⟨rfl, hlast⟩ := List.append_inj' heq rfl
        rw [List.singleton_inj.1 hlast]
        exact ⟨g, state, ⟨⟨n, hturn⟩, hopen, hputs⟩, rfl, Grows.refl _⟩
      · obtain ⟨g', state', hasked, hearlier, hstate⟩ := h earlier e he
        exact ⟨g', state', hasked, hearlier, hstate.trans hdecides.grows⟩
    · exact h.of_grows hdecides.grows hsilent.exchanges

/-- So does a pass, turn by turn. -/
theorem IsTraced.foldl_decide {before after : List GroupId}
    (h : (G.runAfter policy chooser n).IsTraced G policy chooser)
    (hpulled : (G.runAfter policy chooser n).pulled G = [])
    (hpending : (G.runAfter policy chooser n).pending G = before ++ after) :
    (before.foldl (·.decide G chooser) (G.runAfter policy chooser n)).IsTraced G policy
      chooser := by
  induction before using List.reverseRecOn generalizing after with
  | nil => exact h
  | append_singleton before g ih =>
    rw [List.append_assoc, List.singleton_append] at hpending
    rw [List.foldl_concat]
    exact (ih hpending).decide ⟨hpulled, before, after, hpending, rfl⟩

theorem isTraced_runAfter (n : Nat) : (G.runAfter policy chooser n).IsTraced G policy chooser := by
  induction n with
  | zero =>
    intro earlier e he
    have hnil : earlier ++ [e] = [] := List.prefix_nil.1 he
    simp at hnil
  | succ n ih =>
    rw [Graph.runAfter, Function.iterate_succ_apply', ← Graph.runAfter, pass]
    split
    · rename_i hpulled
      have hall : (G.runAfter policy chooser n).pending G =
          (G.runAfter policy chooser n).pending G ++ [] := (List.append_nil _).symm
      exact (ih.foldl_decide hpulled hall).of_grows (grows_spread _) rfl
    · exact ih.of_grows ((grows_select _).trans (grows_spread _)) rfl

end Run

namespace Graph

variable {G : Graph} {policy : Policy} {chooser : Chooser} {run : Run}

theorem isTraced_settledRun (h : G.settledRun policy chooser = .ok run) :
    run.IsTraced G policy chooser := by
  obtain ⟨n, -, -, rfl⟩ := Run.settle_eq_ok_iff.1 (settle_of_settledRun h)
  exact Run.isTraced_runAfter (n + 1)

/-! ## The protocol -/

/-- An exchange of a run, the exchanges before it, the group that it is about and the state in
which it took place are in order. -/
structure IsOrderly (G : Graph) (policy : Policy) (chooser : Chooser) (run : Run)
    (earlier : List Exchange) (e : Exchange) (g : GroupId) (state : Run) : Prop where
  oneOf : G.policy g = .oneOf
  required : g ∈ run.required
  offers : G.Offers g e.question
  nodup : e.question.candidateNames.Nodup
  asked : G.IsAskedIn policy chooser g e state
  history : state.exchanges = earlier
  untaken : ∀ p ∈ G.members g, p ∉ state.selection
  answer : e.answer = chooser earlier e.question
  grows : (state.decide G chooser g).Grows run
  chosen : ∀ c ∈ e.question.candidates, e.answer = .select c.name → c.id ∈ run.selection ∧
    ∀ m, (G.resolve policy chooser).result = .ok m → G.selectedMembers g run.selection = [c.id]
  unchosen : (∀ c ∈ e.question.candidates, e.answer ≠ .select c.name) →
    (state.decide G chooser g).selection = state.selection

theorem IsAskedIn.isOrderly (hG : G.invoice.WellFormed)
    (hrun : G.settledRun policy chooser = .ok run) {g : GroupId} {e : Exchange} {state : Run}
    (hasked : G.IsAskedIn policy chooser g e state)
    (hgrows : (state.decide G chooser g).Grows run) :
    G.IsOrderly policy chooser run state.exchanges e g state := by
  have hoffers := hasked.puts.asks.offers
  have hdecides : Run.Decides G chooser state g (state.decide G chooser g) :=
    Run.decides_decide hasked.isOpen
  have hrequired : g ∈ run.required :=
    hgrows.required (hdecides.grows.required hasked.isOpen.required)
  refine ⟨hasked.isOpen.oneOf, hrequired, hoffers, hoffers.nodup_candidateNames hG, hasked, rfl,
    ?_, hasked.puts.answer, hgrows, ?_, ?_⟩
  · exact fun p hp hsel => hasked.isOpen.untaken ⟨p, hp, hsel⟩
  · intro c hc hanswer
    have hchosen := Exchange.chosen?_of_answer hanswer (hoffers.candidate?_eq_some hG hc)
    have hsel : c.id ∈ run.selection := by
      refine hgrows.selection.subset ?_
      rw [hasked.puts.selection, hchosen]
      exact List.mem_cons_self
    refine ⟨hsel, fun m hm => ?_⟩
    exact selectedMembers_of_resolve hrun hm hrequired hasked.isOpen.oneOf
      (hoffers.members c hc) hsel
  · intro hnone
    rw [hasked.puts.selection, Exchange.chosen?_eq_none hnone]
    rfl

/-- **Questions are put in order.** Whatever the chooser answers, no group is asked about twice in
a resolution, and each exchange takes place when its group has its turn: the group accepts one
parcel and is required, none of its members is selected, and two or more of them are offered, in
order of declaration. An answer that names one of these selects it, for good and, if the
resolution succeeds, alone; any other answer selects nothing. -/
theorem resolve_asks_orderly {i : Invoice} (hi : i.IsValid) (hG : Graph.build i = .ok G)
    (policy : Policy) (chooser : Chooser) :
    ((G.resolve policy chooser).exchanges.map (·.question.group)).Nodup ∧
      ∀ earlier e later, (G.resolve policy chooser).exchanges = earlier ++ e :: later →
        ∃ run g state, G.settledRun policy chooser = .ok run ∧
          G.IsOrderly policy chooser run earlier e g state := by
  have hwf := wellFormed_of_build hi hG
  cases hrun : G.settledRun policy chooser with
  | error errors =>
    have hnone : (G.resolve policy chooser).exchanges = [] := by
      rw [resolve, hrun]
    rw [hnone]
    refine ⟨List.nodup_nil, fun earlier e later hsplit => ?_⟩
    simp at hsplit
  | ok run =>
    have hrecorded := (passes_of_settledRun hrun).1.isRecorded hwf
    rw [exchanges_resolve hrun]
    refine ⟨hrecorded.nodup_exchanges, fun earlier e later hsplit => ?_⟩
    have hprefix : earlier ++ [e] <+: run.exchanges := ⟨later, by simp [hsplit]⟩
    obtain ⟨g, state, hasked, rfl, hgrows⟩ := isTraced_settledRun hrun earlier e hprefix
    exact ⟨run, g, state, rfl, hasked.isOrderly hwf hrun hgrows⟩

end Graph

/-- With the first tool taken whenever one is to be chosen, the tool is asked for once. -/
theorem Worked.asks_for_tool :
    ∃ e run g state, (graph.resolve policy .takeFirst).exchanges = [] ++ e :: [] ∧
      e.question.candidateNames = ["first", "second"] ∧ e.answer = .select "first" ∧
      graph.settledRun policy .takeFirst = .ok run ∧
      graph.IsOrderly policy .takeFirst run [] e g state := by
  have hasked : (graph.resolve policy .takeFirst).exchanges =
      [] ++ ⟨graph.question cli [⟨1⟩, ⟨2⟩], .select "first"⟩ :: [] := by decide +kernel
  obtain ⟨-, horderly⟩ := Graph.resolve_asks_orderly isValid build_eq policy .takeFirst
  obtain ⟨run, g, state, hrun, h⟩ := horderly [] _ [] hasked
  exact ⟨_, run, g, state, hasked, by decide +kernel, rfl, hrun, h⟩

end Bindle
