import Bindle.Json.Value
import Bindle.Text.Quoted

/-!
# Writing JSON

The compact form: no space between tokens, the members of an object in their order, and in a text
only those characters escaped that JSON does not allow to stand for themselves. Every value is
thus written on one line.

The model of how output is written, section 10.4 of `SPEC_FULL.md`.

Main definitions: `Json.toChars`, `Json.toText`.
-/

namespace Bindle.Json

/-- A character inside a written text. -/
def writeChar (c : Char) : List Char :=
  if c = '"' then ['\\', '"']
  else if c = '\\' then ['\\', '\\']
  else if c = '\n' then ['\\', 'n']
  else if c = '\r' then ['\\', 'r']
  else if c = '\t' then ['\\', 't']
  else if c = '\x08' then ['\\', 'b']
  else if c = '\x0c' then ['\\', 'f']
  else if c.toNat < 0x20 then
    ['\\', 'u', '0', '0', Nat.digitChar (c.toNat / 16), Nat.digitChar (c.toNat % 16)]
  else [c]

/-- A text between quotation marks. -/
def writeText (s : String) : List Char :=
  '"' :: (s.toList.flatMap writeChar ++ ['"'])

/-- An integer in decimal. -/
def writeInt : Int → List Char
  | .ofNat n => Nat.toDigits 10 n
  | .negSucc n => '-' :: Nat.toDigits 10 (n + 1)

mutual

/-- The characters of a written value. -/
def toChars : Json → List Char
  | .null => ['n', 'u', 'l', 'l']
  | .bool true => ['t', 'r', 'u', 'e']
  | .bool false => ['f', 'a', 'l', 's', 'e']
  | .int n => writeInt n
  | .decimal literal => literal.toList
  | .string s => writeText s
  | .array [] => ['[', ']']
  | .array (item :: items) => '[' :: (item.toChars ++ itemsToChars items ++ [']'])
  | .object [] => ['\x7b', '\x7d']
  | .object ((key, value) :: members) =>
    '\x7b' ::
      (writeText key ++ ':' :: (value.toChars ++ membersToChars members ++ ['\x7d']))

/-- The items after the first, each after a comma. -/
def itemsToChars : List Json → List Char
  | [] => []
  | item :: items => ',' :: (item.toChars ++ itemsToChars items)

/-- The members after the first, each after a comma. -/
def membersToChars : List (String × Json) → List Char
  | [] => []
  | (key, value) :: members =>
    ',' :: (writeText key ++ ':' :: (value.toChars ++ membersToChars members))

end

/-- A value as text. -/
def toText (j : Json) : String :=
  String.ofList j.toChars

/-! ## Examples -/

example : (Json.object [("a", .array [.int 1, .null]), ("b", .string "x\ny")]).toText =
    "\x7b\"a\":[1,null],\"b\":\"x\\ny\"\x7d" := by decide +kernel

end Bindle.Json
