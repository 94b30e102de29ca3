import Bindle.Text.Printable

/-!
# Quoted characters and texts

A message that points at a character shows it between apostrophes, and a trace shows a text
between quotation marks. In both, a character that is not printable is written by its code point,
so the reader can tell a zero-width space from nothing at all.

Main definitions: `quotedChar`, `quotedText`.
-/

namespace Bindle.Text

/-- The lower-case hexadecimal digits of a number. -/
def hexDigits (n : Nat) : List Char :=
  Nat.toDigits 16 n

/-- A character as written between quotes of the kind `quote`. -/
def escapeChar (quote c : Char) : List Char :=
  if c = Char.ofNat 0 then ['\\', '0']
  else if c = '\t' then ['\\', 't']
  else if c = '\r' then ['\\', 'r']
  else if c = '\n' then ['\\', 'n']
  else if c = '\\' ∨ c = quote then ['\\', c]
  else if isPrintable c then [c]
  else ['\\', 'u', '\x7b'] ++ hexDigits c.toNat ++ ['\x7d']

/-- A character between apostrophes. -/
def quotedChar (c : Char) : String :=
  String.ofList (['\''] ++ escapeChar '\'' c ++ ['\''])

/-- A text between quotation marks. -/
def quotedText (s : String) : String :=
  String.ofList (['"'] ++ s.toList.flatMap (escapeChar '"') ++ ['"'])

/-- Texts between braces, separated by commas, each between quotation marks. -/
def quotedSet (names : List String) : String :=
  "\x7b" ++ ", ".intercalate (names.map quotedText) ++ "\x7d"

/-! ## Examples -/

example : quotedChar 'x' = "'x'" := by decide +kernel
example : quotedChar '\'' = "'\\''" := by decide +kernel
example : quotedText "a\"b" = "\"a\\\"b\"" := by decide +kernel

end Bindle.Text
