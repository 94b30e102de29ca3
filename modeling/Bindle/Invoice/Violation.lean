import Bindle.Group.Name
import Bindle.Label.Basic
import Bindle.Version.Reader

/-!
# Violations of the invoice schema

What can keep a draft from being an invoice, and how checks report it. A check runs in one of two
modes: it stops at the first violation, or it goes on and gathers all of them. Both modes run the
same checks; they differ only in what follows a report.

The model of `SchemaError` in section 7 of `SPEC_FULL.md`.

Main definitions: `Violation`, `Reporting`, `Check`, `Check.report`.
-/

namespace Bindle

/-- A field that an invoice cannot do without. -/
inductive RequiredField where
  | bindleVersion
  | bindleName
  | versionOfBindle
  deriving DecidableEq

/-- The field as it is written. -/
def RequiredField.toText : RequiredField → String
  | .bindleVersion => "bindleVersion"
  | .bindleName => "bindle.name"
  | .versionOfBindle => "bindle.version"

/-- A way in which a draft is no invoice. -/
inductive Violation where
  | missingField (field : RequiredField)
  | invalidVersion (version : String) (reason : VersionError)
  | emptyGroupName (position : Nat)
  | invalidGroupName (name : String) (reason : GroupNameError)
  | duplicateGroup (name : String)
  | unknownPolicy (group value : String)
  | unknownGroup (group parcel : String)
  | globalMembership (parcel : String)
  | duplicateParcel (name : String)
  | invalidLabel (parcel : String) (reason : LabelError)
  deriving DecidableEq

namespace Violation

/-- The message of a violation. -/
def message : Violation → String
  | .missingField field => s!"Missing required field: {field.toText}"
  | .invalidVersion version reason => s!"Invalid bindle version '{version}': {reason.message}"
  | .emptyGroupName position => s!"Group #{position} has an empty name"
  | .invalidGroupName name reason => s!"Invalid group name '{name}': {reason.message}"
  | .duplicateGroup name => s!"Group '{name}' is declared more than once"
  | .unknownPolicy group value =>
    s!"Group '{group}' has unknown satisfiedBy value '{value}' (expected allOf, oneOf or anyOf)"
  | .unknownGroup group parcel => s!"Parcel '{parcel}' references undeclared group '{group}'"
  | .globalMembership parcel =>
    s!"Parcel '{parcel}' lists the global group in memberOf; global membership is derived"
  | .duplicateParcel name => s!"Parcel name '{name}' is used more than once"
  | .invalidLabel parcel reason => s!"Parcel '{parcel}' has an invalid label: {reason.message}"

/-- The message and those of its causes, the deepest last. -/
def causes (v : Violation) : List String :=
  v.message :: match v with
    | .invalidGroupName _ reason => [reason.message]
    | .invalidLabel _ reason => [reason.message]
    | _ => []

end Violation

/-! ## Checks -/

/-- What follows a report. -/
inductive Reporting where
  /-- The check ends. -/
  | failFast
  /-- The check goes on. -/
  | collectAll
  deriving DecidableEq

/-- A check reports violations in order, and has a result unless it was ended. -/
def Check (α : Type) : Type :=
  Reporting → List Violation × Option α

namespace Check

variable {α β : Type}

/-- No violation. -/
def pure (a : α) : Check α :=
  fun _ => ([], some a)

/-- One check after another; the second does not run when the first was ended. -/
def bind (c : Check α) (next : α → Check β) : Check β := fun mode =>
  match c mode with
  | (reported, none) => (reported, none)
  | (reported, some a) => (reported ++ (next a mode).1, (next a mode).2)

instance : Monad Check where
  pure := pure
  bind := bind

/-- Reports one violation. -/
def report (v : Violation) : Check Unit
  | .failFast => ([v], none)
  | .collectAll => ([v], some ())

/-- Reports a violation if there is one. -/
def reportIf (p : Prop) [Decidable p] (v : Violation) : Check Unit :=
  if p then report v else pure ()

end Check

end Bindle
