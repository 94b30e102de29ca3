import Bindle.Graph.Basic

/-!
# When a selection satisfies a group

A group is judged by its policy and by which of its members are selected; nothing else of the
selection matters. Only a group with the policy `oneOf` can have too many of them, and only one
with the policy `anyOf` is judged differently when it is required, under the stricter of the two
readings.

The model of the component `SatisfactionEvaluator` in section 4.4 of `SPEC_FULL.md`.

Main definitions: `Satisfaction`, `Graph.selectedMembers`, `Graph.evaluate`.
-/

namespace Bindle

/-- A set of selected parcels, as a list; the order says nothing. -/
abbrev Selection := List ParcelId

/-- How a group stands against a selection. -/
inductive Satisfaction where
  | satisfied
  | unsatisfied
  /-- More than one member is selected where one is accepted. -/
  | overSatisfied
  deriving DecidableEq

/-- The outcome as it is written. -/
def Satisfaction.toText : Satisfaction → String
  | .satisfied => "satisfied"
  | .unsatisfied => "unsatisfied"
  | .overSatisfied => "over_satisfied"

/-- How a group that accepts one member stands with that many. -/
def Satisfaction.ofCount : Nat → Satisfaction
  | 0 => .unsatisfied
  | 1 => .satisfied
  | _ => .overSatisfied

/-- Satisfied or not. -/
def Satisfaction.ofBool : Bool → Satisfaction
  | true => .satisfied
  | false => .unsatisfied

namespace Graph

/-- The members of a group that are selected. -/
def selectedMembers (G : Graph) (g : GroupId) (selection : Selection) : List ParcelId :=
  (G.members g).filter (· ∈ selection)

/-- How a group stands against a selection. -/
def evaluate (G : Graph) (reading : AnyOfReading) (g : GroupId) (required : Bool)
    (selection : Selection) : Satisfaction :=
  match G.policy g with
  | .allOf => .ofBool ((G.members g).all (· ∈ selection))
  | .oneOf => .ofCount (G.selectedMembers g selection).length
  | .anyOf =>
    if required ∧ reading = .atLeastOne then .ofBool ((G.members g).any (· ∈ selection))
    else .satisfied

/-- Whether a selection satisfies a group. -/
def isSatisfied (G : Graph) (reading : AnyOfReading) (g : GroupId) (required : Bool)
    (selection : Selection) : Bool :=
  G.evaluate reading g required selection == .satisfied

end Graph

end Bindle
