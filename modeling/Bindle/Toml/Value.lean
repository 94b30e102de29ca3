import Bindle.Json.Value

/-!
# TOML values

Invoices, choices and settings are TOML documents. All that reads them further works on JSON, so
each TOML value has a JSON form: tables are objects, a number with a fraction or an exponent keeps
its text, and a date-time, which JSON lacks, is an object with one reserved key.

Main definitions: `Toml`, `Toml.toJson`.
-/

namespace Bindle

/-- A TOML value. The keys of a table are in the order in which they first appear. -/
inductive Toml where
  | string (text : String)
  | integer (value : Int)
  /-- A number with a fraction or an exponent, or a special one, as it was written. -/
  | float (literal : String)
  | boolean (value : Bool)
  /-- A date, a time or both, in normal form. -/
  | dateTime (text : String)
  | array (items : List Toml)
  | table (entries : List (String × Toml))
  deriving Inhabited

namespace Toml

/-- The key of the object that stands for a date-time. -/
def dateTimeKey : String := "$__toml_private_datetime"

mutual

/-- The JSON form of a value. -/
def toJson : Toml → Json
  | .string text => .string text
  | .integer value => .int value
  | .float literal => .decimal literal
  | .boolean value => .bool value
  | .dateTime text => .object [(dateTimeKey, .string text)]
  | .array items => .array (itemsToJson items)
  | .table entries => .object (entriesToJson entries)

/-- The JSON forms of the items of an array. -/
def itemsToJson : List Toml → List Json
  | [] => []
  | item :: items => item.toJson :: itemsToJson items

/-- The JSON forms of the entries of a table. -/
def entriesToJson : List (String × Toml) → List (String × Json)
  | [] => []
  | (key, value) :: entries => (key, value.toJson) :: entriesToJson entries

end

end Toml

end Bindle
