import Bindle.Json.Fields
import Bindle.Resolution.Run
import Bindle.Toml.Document

/-!
# Settings

A project says in a file how its invoices are to be resolved, and a user says in another how
results are to be shown. The first file must not hold anything else, so that a misspelt setting is
noticed; the second may, because it may belong to a newer program. Settings that are left out have
their defaults.

The model of the fields of the configuration in section 10.3 of `SPEC_FULL.md`.

* `ResolveSettings`, `ProjectSettings`, `UserSettings`: what is set.
* `ProjectSettings.parse?`, `UserSettings.parse?`: the settings in a document.
* `ResolveSettings.policy`: what the settings ask of a resolution.
-/

namespace Bindle

/-- How results are shown. -/
inductive OutputFormat where
  | text
  | json
  deriving DecidableEq, Inhabited

namespace OutputFormat

/-- The format as it is written. -/
def toText : OutputFormat → String
  | .text => "text"
  | .json => "json"

/-- The format that a text names. -/
def ofText? (text : String) : Option OutputFormat :=
  if text = "text" then some .text
  else if text = "json" then some .json
  else none

theorem ofText?_toText (f : OutputFormat) : ofText? f.toText = some f := by
  cases f <;> decide

end OutputFormat

/-! ## What is set -/

/-- How invoices are to be resolved. -/
structure ResolveSettings where
  anyOf : AnyOfReading := .atLeastOne
  allowYanked : Bool := false
  /-- The groups to opt into, as listed. -/
  optIn : List String := []
  deriving DecidableEq, Inhabited

/-- What a project sets. -/
structure ProjectSettings where
  resolve : ResolveSettings := {}
  deriving DecidableEq, Inhabited

/-- What a user sets. -/
structure UserSettings where
  defaultFormat : OutputFormat := .text
  deriving DecidableEq, Inhabited

/-- What the settings ask of a resolution. -/
def ResolveSettings.policy (s : ResolveSettings) : Policy where
  optedIn := .ofList s.optIn
  anyOf := s.anyOf

/-! ## Reading -/

/-- Whether a value stands for nothing, as an empty table or array does. -/
def isEmptyContainer : Json → Bool
  | .array [] => true
  | .object [] => true
  | _ => false

/-- The settings for resolving, in order. All of them have defaults. -/
def ResolveSettings.keys : List Json.FieldKey :=
  [⟨"any_of", true⟩, ⟨"allow_yanked", true⟩, ⟨"opt_in", true⟩]

/-- The settings for resolving that a record holds. -/
def ResolveSettings.ofJson? (j : Json) : Option ResolveSettings := do
  let members ← j.record? .ignored keys
  let anyOf ← Json.defaulted members "any_of" .atLeastOne fun value =>
    (value.constant? isEmptyContainer).bind AnyOfReading.ofText?
  let allowYanked ← Json.defaulted members "allow_yanked" false Json.flag?
  let optIn ← Json.defaulted members "opt_in" [] (Json.listOf? Json.text?)
  return { anyOf, allowYanked, optIn }

/-- The project settings that a record holds. -/
def ProjectSettings.ofJson? (j : Json) : Option ProjectSettings := do
  let members ← j.record? .ignored [⟨"resolve", true⟩]
  let resolve ← Json.defaulted members "resolve" {} ResolveSettings.ofJson?
  return { resolve }

/-- The user settings that a table holds, whatever else it holds. -/
def UserSettings.ofJson? : Json → Option UserSettings
  | .object members => do
    let defaultFormat ← Json.defaulted members "default_format" .text fun value =>
      (value.constant? isEmptyContainer).bind OutputFormat.ofText?
    return { defaultFormat }
  | _ => none

/-- The project settings in a document. -/
def ProjectSettings.parse? (text : String) : Option ProjectSettings :=
  (Toml.parse? text).bind (ofJson? ·.toJson)

/-- The user settings in a document. -/
def UserSettings.parse? (text : String) : Option UserSettings :=
  (Toml.parse? text).bind (ofJson? ·.toJson)

end Bindle
