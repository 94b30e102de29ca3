/-!
# JSON values

Invoices and labels may come as JSON, and reports are written as JSON. Members of an object keep
their order, because a written object shows it. A number that is written as an integer is an
integer of any size; one with a fraction or an exponent is kept as its text, for no field of ours
is such a number.

The model of the values behind `--format json` and decoding, section 10.4 of `SPEC_FULL.md`.

Main definition: `Json`.
-/

namespace Bindle

/-- A JSON value. -/
inductive Json where
  | null
  | bool (value : Bool)
  | int (value : Int)
  /-- A number written with a fraction or an exponent, as it was written. -/
  | decimal (literal : String)
  | string (text : String)
  | array (items : List Json)
  | object (members : List (String × Json))
  deriving Inhabited

namespace Json

/-- The array of texts. -/
def strings (texts : List String) : Json :=
  .array (texts.map .string)

/-- A natural number. -/
def nat (n : Nat) : Json :=
  .int n

/-- The text if there is one, else null. -/
def stringOrNull : Option String → Json
  | none => .null
  | some s => .string s

end Json

end Bindle
