import Bindle.Json.Value
import Bindle.Sorted.StringMap

/-!
# Taking values out of JSON

Each reader takes one kind of value and refuses every other: nothing is converted. A record is an
object all of whose keys are known, or an array of the values of its fields in order. A field is
either optional, then it may be missing or null, or has a default, then it may be missing but not
null. An array has no keys, so nothing can be missing in it but at its end, and only fields with a
default may be missing there.

The model of how records are decoded, section 10.4 of `SPEC_FULL.md`.

Main definitions: `text?`, `word64?`, `listOf?`, `mapOf?`, `FieldKey`, `record?`, `optional`,
`defaulted`.
-/

namespace Bindle.Json

/-! ## Kinds of values -/

/-- A text. -/
def text? : Json → Option String
  | .string s => some s
  | _ => none

/-- A truth value. -/
def flag? : Json → Option Bool
  | .bool b => some b
  | _ => none

/-- A natural number below 2 ^ 64. -/
def word64? : Json → Option UInt64
  | .int (.ofNat n) => if n < UInt64.size then some (.ofNat n) else none
  | _ => none

/-- An array whose items the reader takes. -/
def listOf? {α : Type} (read : Json → Option α) : Json → Option (List α)
  | .array items => items.mapM read
  | _ => none

/-- An object whose values the reader takes, under any keys. -/
def mapOf? {α : Type} (read : Json → Option α) : Json → Option (StringMap α)
  | .object members => do
    let entries ← members.mapM fun m => (read m.2).map (m.1, ·)
    return .ofList entries
  | _ => none

/-- The name of one of several constants: a text, or an object with that name as its only key and
a value that stands for nothing. -/
def constant? (isNothing : Json → Bool) : Json → Option String
  | .string s => some s
  | .object [(name, body)] => if isNothing body then some name else none
  | _ => none

/-- Whether the value is null. -/
def isNull : Json → Bool
  | .null => true
  | _ => false

/-! ## Fields of records -/

/-- A field of a record, as far as it can be told without its value. -/
structure FieldKey where
  key : String
  /-- Whether there is a default for the field when it is missing. -/
  hasDefault : Bool
  deriving DecidableEq

/-- What becomes of the values of an array behind that of the last field. -/
inductive Surplus where
  /-- The array is refused, as in JSON. -/
  | refused
  /-- They are passed over, as in TOML. -/
  | ignored
  deriving DecidableEq

/-- The members of a record: those of an object, if all its keys are known, or the values of an
array under the keys in order, if each field that is missing at the end has a default. -/
def record? (surplus : Surplus) (known : List FieldKey) : Json → Option (List (String × Json))
  | .object members =>
    if members.all fun m => known.any (·.key == m.1) then some members else none
  | .array values =>
    if (known.drop values.length).all (·.hasDefault) &&
        (surplus == .ignored || values.length ≤ known.length) then
      some ((known.map (·.key)).zip values)
    else none
  | _ => none

/-- A field that may be missing or null. -/
def optional {α : Type} (members : List (String × Json)) (key : String) (read : Json → Option α) :
    Option (Option α) :=
  match members.lookup key with
  | none | some .null => some none
  | some value => (read value).map some

/-- A field that counts as `otherwise` when it is missing. -/
def defaulted {α : Type} (members : List (String × Json)) (key : String) (otherwise : α)
    (read : Json → Option α) : Option α :=
  match members.lookup key with
  | none => some otherwise
  | some value => read value

end Bindle.Json
