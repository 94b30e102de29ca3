import Bindle.Text.Blank

/-!
# Names of groups

A declared group has a name; the group of parcels that name no group, the global group, has none
and is written `<global>`. A name is never empty, has no blank at either end and is not
`<global>`, so no declared group can be mistaken for the global one.

The model of the component `Ids` in section 2 of `SPEC_FULL.md`, as far as names go.

Main definitions: `GroupName`, `GroupName.parse`, `GroupRef`.
-/

namespace Bindle

/-- How the global group is written. -/
def globalDisplay : String := "<global>"

/-- Why a text is no group name. -/
inductive GroupNameError where
  | empty
  | untrimmed (text : String)
  | reserved
  deriving DecidableEq

/-- The message of an error. -/
def GroupNameError.message : GroupNameError → String
  | .empty => "Group name must not be empty"
  | .untrimmed text => s!"Group name must not have surrounding whitespace: '{text}'"
  | .reserved => s!"Group name '{globalDisplay}' is reserved for the global group"

/-- The name of a declared group. -/
structure GroupName where
  text : String
  ne_empty : text ≠ ""
  trimmed : Text.trim text = text
  ne_global : text ≠ globalDisplay
  deriving DecidableEq

namespace GroupName

/-- The name that a text spells. -/
def parse (text : String) : Except GroupNameError GroupName :=
  if h₁ : text = "" then .error .empty
  else if h₂ : Text.trim text = text then
    if h₃ : text = globalDisplay then .error .reserved
    else .ok ⟨text, h₁, h₂, h₃⟩
  else .error (.untrimmed text)

/-- A name reads back from its text. -/
theorem parse_text (name : GroupName) : parse name.text = .ok name := by
  rw [parse, dif_neg name.ne_empty, dif_pos name.trimmed, dif_neg name.ne_global]

/-- A text that is read as a name is the text of that name. -/
theorem text_of_parse {text : String} {name : GroupName} (h : parse text = .ok name) :
    name.text = text := by
  rw [parse] at h
  split at h
  · cases h
  · split at h
    · split at h
      · cases h
      · exact (Except.ok.inj h) ▸ rfl
    · cases h

theorem text_inj {a b : GroupName} : a.text = b.text ↔ a = b := by
  constructor
  · intro h
    cases a
    cases b
    simpa using h
  · rintro rfl
    rfl

end GroupName

/-- The global group or a named one. -/
inductive GroupRef where
  | global
  | named (name : GroupName)
  deriving DecidableEq

namespace GroupRef

/-- The group that a text in a list of conditions stands for; the empty text is the global one. -/
def ofReference (text : String) : Except GroupNameError GroupRef :=
  if text = "" then .ok .global else (GroupName.parse text).map .named

/-- Whether this is the global group. -/
def isGlobal : GroupRef → Bool
  | .global => true
  | .named _ => false

/-- The name of a named group. -/
def name? : GroupRef → Option GroupName
  | .global => none
  | .named name => some name

/-- The group as it is shown. -/
def display : GroupRef → String
  | .global => globalDisplay
  | .named name => name.text

end GroupRef

end Bindle
