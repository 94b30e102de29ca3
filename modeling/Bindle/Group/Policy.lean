/-!
# Policies of groups

A group says when a selection of parcels satisfies it: with all of its members, with exactly one,
or with at least one. The last policy has two readings once somebody requires the group: that one
member is needed then, or that none ever is.

The model of `satisfiedBy` in section 3 of `SPEC_FULL.md`, and of `AnyOfReading` in section 4.4.

Main definitions: `GroupPolicy`, `AnyOfReading`.
-/

namespace Bindle

/-- When a selection satisfies a group. -/
inductive GroupPolicy where
  | allOf
  | oneOf
  | anyOf
  deriving DecidableEq, Inhabited

namespace GroupPolicy

/-- The policy as it is written. -/
def toText : GroupPolicy → String
  | .allOf => "allOf"
  | .oneOf => "oneOf"
  | .anyOf => "anyOf"

/-- The policy that a text names. -/
def ofText? (text : String) : Option GroupPolicy :=
  if text = "allOf" then some .allOf
  else if text = "oneOf" then some .oneOf
  else if text = "anyOf" then some .anyOf
  else none

theorem ofText?_toText (p : GroupPolicy) : ofText? p.toText = some p := by
  cases p <;> decide

theorem ofText?_eq_some_iff {text : String} {p : GroupPolicy} :
    ofText? text = some p ↔ p.toText = text := by
  constructor
  · intro h
    unfold ofText? at h
    split at h
    · rename_i htext
      exact Option.some.inj h ▸ htext.symm
    · split at h
      · rename_i htext
        exact Option.some.inj h ▸ htext.symm
      · split at h
        · rename_i htext
          exact Option.some.inj h ▸ htext.symm
        · cases h
  · rintro rfl
    exact ofText?_toText p

end GroupPolicy

/-- What a required group with the policy `anyOf` needs. -/
inductive AnyOfReading where
  /-- At least one selected member. -/
  | atLeastOne
  /-- Nothing. -/
  | optional
  deriving DecidableEq, Inhabited

namespace AnyOfReading

/-- The reading as it is written. -/
def toText : AnyOfReading → String
  | .atLeastOne => "at-least-one"
  | .optional => "optional"

/-- The reading that a text names; the stricter one has a second, longer name. -/
def ofText? (text : String) : Option AnyOfReading :=
  if text = "at-least-one" ∨ text = "at-least-one-when-required" then some .atLeastOne
  else if text = "optional" then some .optional
  else none

/-- The message on a text that names no reading. -/
def unknownMessage (text : String) : String :=
  s!"unknown anyOf reading '{text}' (expected at-least-one or optional)"

theorem ofText?_toText (r : AnyOfReading) : ofText? r.toText = some r := by
  cases r <;> decide

end AnyOfReading

end Bindle
