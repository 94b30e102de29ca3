import Bindle.Proofs.Resolution.Steps
import Bindle.Resolution.Satisfaction
import Mathlib.Order.Lattice

/-!
# How groups stand as a selection grows

A group has too few, enough or too many of its members selected. Each policy counts members in its
own way, but under all of them one more selected member moves a group forward and never back. Here
two selections are compared on the members of the group only, so the same comparison, made both
ways, says that nothing else of a selection matters. In a run the selection only grows: what was too
much for a group stays too much, and a group that has got what it needs never lacks it again, so
that an error which says that it does is out of date.

A group that is not required and the reading of `anyOf` that asks for nothing make a judgement
milder; neither of them undoes a group that is satisfied.

* `Satisfaction.rank`: the outcomes in order.
* `evaluate_le_evaluate`: the evaluator grows with the selected members.
* `evaluate_eq_satisfied_of_imp`: asking for less.
* `evaluate_lawful`: the laws of the evaluator.
* `Run.Reaches.evaluate_le`: how a group stands in the course of a run.
-/

namespace Bindle

/-! ## The outcomes in order -/

namespace Satisfaction

/-- How much is selected: too little, enough, or too much. -/
def rank : Satisfaction → Nat
  | .unsatisfied => 0
  | .satisfied => 1
  | .overSatisfied => 2

theorem rank_injective : Function.Injective rank := by
  intro a b h
  cases a <;> cases b <;> first | rfl | cases h

instance : LinearOrder Satisfaction := LinearOrder.lift' rank rank_injective

theorem le_iff_rank_le {a b : Satisfaction} : a ≤ b ↔ a.rank ≤ b.rank := Iff.rfl

theorem ofBool_le_ofBool {b c : Bool} (h : b = true → c = true) : ofBool b ≤ ofBool c := by
  cases b with
  | false => cases c <;> decide
  | true => rw [h rfl]

/-- From the second member on it is too much, however many there are. -/
theorem rank_ofCount (n : Nat) : (ofCount n).rank = min n 2 := by
  match n with
  | 0 => rfl
  | 1 => rfl
  | n + 2 => exact (Nat.min_eq_right (Nat.le_add_left 2 n)).symm

theorem ofCount_le_ofCount {m n : Nat} (h : m ≤ n) : ofCount m ≤ ofCount n := by
  rw [le_iff_rank_le, rank_ofCount, rank_ofCount]
  omega

end Satisfaction

/-! ## The evaluator -/

namespace Graph

variable {G : Graph} {reading reading' : AnyOfReading} {g : GroupId} {required required' : Bool}
  {S T : Selection}

theorem length_selectedMembers_le (h : ∀ p ∈ G.members g, p ∈ S → p ∈ T) :
    (G.selectedMembers g S).length ≤ (G.selectedMembers g T).length := by
  unfold selectedMembers
  rw [← List.countP_eq_length_filter, ← List.countP_eq_length_filter]
  refine List.countP_mono_left fun p hp hsel => ?_
  rw [decide_eq_true_eq] at hsel ⊢
  exact h p hp hsel

theorem selectedMembers_congr (h : ∀ p ∈ G.members g, p ∈ S ↔ p ∈ T) :
    G.selectedMembers g S = G.selectedMembers g T :=
  List.filter_congr fun p hp => decide_eq_decide.2 (h p hp)

/-- More selected members move a group forward, whatever its policy counts. -/
theorem evaluate_le_evaluate (h : ∀ p ∈ G.members g, p ∈ S → p ∈ T) :
    G.evaluate reading g required S ≤ G.evaluate reading g required T := by
  unfold evaluate
  cases G.policy g with
  | allOf =>
    refine Satisfaction.ofBool_le_ofBool fun hall => ?_
    simp only [List.all_eq_true, decide_eq_true_eq] at hall ⊢
    exact fun p hp => h p hp (hall p hp)
  | oneOf => exact Satisfaction.ofCount_le_ofCount (length_selectedMembers_le h)
  | anyOf =>
    dsimp only
    split
    · refine Satisfaction.ofBool_le_ofBool fun hany => ?_
      simp only [List.any_eq_true, decide_eq_true_eq] at hany ⊢
      obtain ⟨p, hp, hsel⟩ := hany
      exact ⟨p, hp, h p hp hsel⟩
    · exact le_refl _

/-- A group is judged by its own members. -/
theorem evaluate_congr (h : ∀ p ∈ G.members g, p ∈ S ↔ p ∈ T) :
    G.evaluate reading g required S = G.evaluate reading g required T :=
  le_antisymm (evaluate_le_evaluate fun p hp => (h p hp).1)
    (evaluate_le_evaluate fun p hp => (h p hp).2)

/-- Only a required group with the policy `anyOf`, and only under the stricter reading, is asked
for more than the same group otherwise is. Asking for less undoes no satisfied group. -/
theorem evaluate_eq_satisfied_of_imp
    (hless : required' = true ∧ reading' = .atLeastOne → required = true ∧ reading = .atLeastOne)
    (h : G.evaluate reading g required S = .satisfied) :
    G.evaluate reading' g required' S = .satisfied := by
  unfold evaluate at h ⊢
  cases hpolicy : G.policy g with
  | allOf => simpa only [hpolicy] using h
  | oneOf => simpa only [hpolicy] using h
  | anyOf =>
    simp only [hpolicy] at h ⊢
    by_cases hasked : required' = true ∧ reading' = .atLeastOne
    · rw [if_pos (hless hasked)] at h
      rw [if_pos hasked, h]
    · rw [if_neg hasked]

/-- **The evaluator is monotone and local.** A selection with more parcels moves a group forward,
from unsatisfied over satisfied to over-satisfied; selections with the same members of a group are
the same to it. What satisfies a group as a required one satisfies it as one that is not, and what
satisfies it under the stricter reading comes to the same under the other. -/
theorem evaluate_lawful (G : Graph) (g : GroupId) :
    (∀ reading required S T, S ⊆ T →
      G.evaluate reading g required S ≤ G.evaluate reading g required T) ∧
    (∀ reading required S T, (∀ p ∈ G.members g, p ∈ S ↔ p ∈ T) →
      G.evaluate reading g required S = G.evaluate reading g required T) ∧
    (∀ reading S, G.isSatisfied reading g true S → G.isSatisfied reading g false S) ∧
    ∀ required S, G.isSatisfied .atLeastOne g required S →
      G.evaluate .optional g required S = G.evaluate .atLeastOne g required S := by
  simp only [isSatisfied, beq_iff_eq]
  refine ⟨fun reading required S T h => ?_, fun reading required S T h => ?_,
    fun reading S h => ?_, fun required S h => ?_⟩
  · exact evaluate_le_evaluate fun p _ hp => h hp
  · exact evaluate_congr h
  · exact evaluate_eq_satisfied_of_imp (by simp) h
  · rw [h]
    exact evaluate_eq_satisfied_of_imp (by simp) h

end Graph

/-! ## In the course of a run -/

/-- As a run goes on, a group moves forward and never back. -/
theorem Run.Reaches.evaluate_le {G : Graph} {chooser : Chooser} {run next : Run}
    (h : Reaches G chooser run next) (reading : AnyOfReading) (g : GroupId) (required : Bool) :
    G.evaluate reading g required run.selection ≤ G.evaluate reading g required next.selection :=
  Graph.evaluate_le_evaluate fun _ _ hp => h.grows.selection.subset hp

end Bindle
