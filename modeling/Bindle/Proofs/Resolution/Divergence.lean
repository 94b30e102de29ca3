import Bindle.Proofs.Resolution.Settling

/-!
# Runs under two choosers

A run asks only where it has to, and nothing but an answer ever sets two runs of one graph apart.
So with two choosers either the runs are the same, or they are the same up to some question which
the choosers answer differently: both runs put it, after the same exchanges. What happens after
that question may differ in every way.

* `Run.Parted`: two runs put the same question after the same exchanges, and the answers differ.
* `decide_eq_or_parted`, `pass_eq_or_parted`, `settle_eq_or_parted`: one decision, one pass and a
  whole run either come to the same or part.
* `settledRun_eq_or_parted`: so do the settled runs of a graph.
-/

namespace Bindle

namespace Run

variable {G : Graph} {chooser chooser' : Chooser} {run last last' : Run} {g : GroupId}

/-! ## Exchanges only grow -/

theorem exchanges_answer (run : Run) (g : GroupId) (q : Question) (choice : Choice) :
    (run.answer g q choice).exchanges = run.exchanges ++ [⟨q, choice⟩] := by
  unfold answer
  cases choice with
  | skip => rfl
  | select name =>
    dsimp only
    split
    · rfl
    · rfl

theorem exchanges_prefix_decide : run.exchanges <+: (run.decide G chooser g).exchanges := by
  unfold decide
  split
  · exact List.prefix_refl _
  · dsimp only
    split
    · exact List.prefix_refl _
    · exact List.prefix_refl _
    · unfold ask
      split
      · exact List.prefix_refl _
      · rw [exchanges_answer]
        exact List.prefix_append _ _

theorem exchanges_prefix_foldl (gs : List GroupId) :
    run.exchanges <+: (gs.foldl (·.decide G chooser) run).exchanges := by
  induction gs generalizing run with
  | nil => exact List.prefix_refl _
  | cons g rest ih => exact exchanges_prefix_decide.trans ih

theorem exchanges_prefix_settle {fuel : Nat} (h : run.settle G chooser (fuel + 1) = .ok last) :
    (run.pass G chooser).exchanges <+: last.exchanges := by
  induction fuel generalizing run with
  | zero =>
    rw [settle] at h
    split at h
    · exact Except.ok.inj h ▸ List.prefix_refl _
    · cases h
  | succ fuel ih =>
    rw [settle] at h
    split at h
    · exact Except.ok.inj h ▸ List.prefix_refl _
    · exact reaches_pass.grows.exchanges.trans (ih h)

/-! ## Parting -/

/-- The runs put the same question after the same exchanges, and the choosers answer it
differently. -/
def Parted (chooser chooser' : Chooser) (run run' : Run) : Prop :=
  ∃ earlier q, chooser earlier q ≠ chooser' earlier q ∧
    earlier ++ [⟨q, chooser earlier q⟩] <+: run.exchanges ∧
    earlier ++ [⟨q, chooser' earlier q⟩] <+: run'.exchanges

/-- Runs that parted stay parted. -/
theorem Parted.of_prefix {run' : Run} (h : Parted chooser chooser' run run')
    (hlast : run.exchanges <+: last.exchanges) (hlast' : run'.exchanges <+: last'.exchanges) :
    Parted chooser chooser' last last' := by
  obtain ⟨earlier, q, hne, hq, hq'⟩ := h
  exact ⟨earlier, q, hne, hq.trans hlast, hq'.trans hlast'⟩

theorem ask_eq_or_parted (run : Run) (g : GroupId) (ps : List ParcelId) :
    run.ask G chooser g ps = run.ask G chooser' g ps ∨
      Parted chooser chooser' (run.ask G chooser g ps) (run.ask G chooser' g ps) := by
  unfold ask
  split
  · exact .inl rfl
  · rename_i group _
    dsimp only
    generalize G.question group.name ps = q
    by_cases hsame : chooser run.exchanges q = chooser' run.exchanges q
    · rw [hsame]
      exact .inl rfl
    · refine .inr ⟨run.exchanges, q, hsame, ?_, ?_⟩
      · exact exchanges_answer .. ▸ List.prefix_refl _
      · exact exchanges_answer .. ▸ List.prefix_refl _

theorem decide_eq_or_parted (run : Run) (g : GroupId) :
    run.decide G chooser g = run.decide G chooser' g ∨
      Parted chooser chooser' (run.decide G chooser g) (run.decide G chooser' g) := by
  unfold decide
  split
  · exact .inl rfl
  · dsimp only
    split
    · exact .inl rfl
    · exact .inl rfl
    · exact ask_eq_or_parted _ _ _

theorem foldl_decide_eq_or_parted (run : Run) (gs : List GroupId) :
    gs.foldl (·.decide G chooser) run = gs.foldl (·.decide G chooser') run ∨
      Parted chooser chooser' (gs.foldl (·.decide G chooser) run)
        (gs.foldl (·.decide G chooser') run) := by
  induction gs generalizing run with
  | nil => exact .inl rfl
  | cons g rest ih =>
    rw [List.foldl_cons, List.foldl_cons]
    have hdecided : run.decide G chooser g = run.decide G chooser' g ∨
        Parted chooser chooser' _ _ := decide_eq_or_parted run g
    rcases hdecided with heq | hparted
    · rw [heq]
      exact ih _
    · exact .inr (hparted.of_prefix (exchanges_prefix_foldl rest) (exchanges_prefix_foldl rest))

theorem pass_eq_or_parted (run : Run) :
    run.pass G chooser = run.pass G chooser' ∨
      Parted chooser chooser' (run.pass G chooser) (run.pass G chooser') := by
  unfold pass
  split
  · unfold decideAll
    rcases foldl_decide_eq_or_parted run (run.pending G) with heq | hparted
    · rw [heq]
      exact .inl rfl
    · exact .inr (hparted.of_prefix (grows_spread _).exchanges (grows_spread _).exchanges)
  · exact .inl rfl

/-- **Only an answer sets two runs apart.** Runs from one state that settle are the same, or they
parted at a question. -/
theorem settle_eq_or_parted {fuel : Nat} (h : run.settle G chooser fuel = .ok last)
    (h' : run.settle G chooser' fuel = .ok last') :
    last = last' ∨ Parted chooser chooser' last last' := by
  induction fuel generalizing run with
  | zero => cases h
  | succ fuel ih =>
    have hprefix := exchanges_prefix_settle h
    have hprefix' := exchanges_prefix_settle h'
    rcases pass_eq_or_parted run with heq | hparted
    · rw [settle] at h h'
      rw [← heq] at h'
      split at h
      · rename_i hsame
        rw [if_pos hsame] at h'
        exact .inl ((Except.ok.inj h).symm.trans (Except.ok.inj h'))
      · rename_i hdiffer
        rw [if_neg hdiffer] at h'
        exact ih h h'
    · exact .inr (hparted.of_prefix hprefix hprefix')

end Run

/-- The settled runs of a graph under two choosers are the same, or they parted at a question. -/
theorem Graph.settledRun_eq_or_parted {G : Graph} {policy : Policy} {chooser chooser' : Chooser}
    {run run' : Run} (h : G.settledRun policy chooser = .ok run)
    (h' : G.settledRun policy chooser' = .ok run') :
    run = run' ∨ Run.Parted chooser chooser' run run' :=
  Run.settle_eq_or_parted (settle_of_settledRun h) (settle_of_settledRun h')

end Bindle
