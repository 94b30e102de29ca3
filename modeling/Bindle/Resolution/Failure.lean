import Bindle.Graph.Cycle
import Bindle.Json.Value

/-!
# What can go wrong in a resolution

A resolution goes on after an error and reports all of them together. Each error names the group
that it is about, apart from a cycle, which has many.

The model of `ResolutionError` in section 7 of `SPEC_FULL.md`.

Main definitions: `ResolutionError`, `ResolutionError.message`, `ResolutionError.toJson`.
-/

namespace Bindle

/-- One thing that went wrong. -/
inductive ResolutionError where
  /-- The group is required, and what is selected does not satisfy it. -/
  | unsatisfiable (group : String)
  /-- The group accepts one parcel, and several are selected. -/
  | overSatisfied (group : String) (selected : List String)
  /-- Nobody chose between the candidates. -/
  | ambiguous (group : String) (candidates : List String)
  /-- The parcel chosen is no candidate. -/
  | invalidChoice (group parcel : String)
  /-- A group that was opted into is not declared. -/
  | unknownGroup (group : String)
  /-- The graph has a cycle. -/
  | cycle (names : List String)
  deriving DecidableEq

namespace ResolutionError

/-- The message of an error. -/
def message : ResolutionError → String
  | .unsatisfiable group => s!"Group '{group}' cannot be satisfied"
  | .overSatisfied group selected =>
    s!"Group '{group}' accepts one parcel but {selected.length} are selected: "
      ++ ", ".intercalate selected
  | .ambiguous group candidates =>
    s!"Group '{group}' needs a choice between: " ++ ", ".intercalate candidates
  | .invalidChoice group parcel => s!"'{parcel}' is not a viable choice for group '{group}'"
  | .unknownGroup group => s!"Unknown group '{group}'"
  | .cycle names => cycleMessage names

/-- Whether a group that is satisfied after all leaves no trace of the error. -/
def isForgivable : ResolutionError → Bool
  | .ambiguous _ _ => true
  | .unsatisfiable _ => true
  | _ => false

/-- The error as an object, its keys in alphabetical order. -/
def toJson : ResolutionError → Json
  | .unsatisfiable group =>
    .object [("group", .string group), ("kind", .string "unsatisfiable_group")]
  | .overSatisfied group selected =>
    .object [("group", .string group), ("kind", .string "over_satisfied"),
      ("selected", .strings selected)]
  | .ambiguous group candidates =>
    .object [("candidates", .strings candidates), ("group", .string group),
      ("kind", .string "ambiguous_selection")]
  | .invalidChoice group parcel =>
    .object [("group", .string group), ("kind", .string "invalid_choice"),
      ("parcel", .string parcel)]
  | .unknownGroup group =>
    .object [("group", .string group), ("kind", .string "unknown_group_reference")]
  | .cycle names =>
    .object [("kind", .string "cycle_detected"), ("path", .strings names)]

end ResolutionError

/-- The message on all errors of a resolution. -/
def resolutionMessage (errors : List ResolutionError) : String :=
  "Resolution failed: " ++ "; ".intercalate (errors.map (·.message))

end Bindle
