/-!
# Columns of text

Tables pad each cell with spaces to the width of its column. Width counts characters, and a cell
that is too long is left as it is. Main definition: `padRight`.
-/

namespace Bindle.Text

/-- The text followed by spaces up to `width` characters. -/
def padRight (width : Nat) (s : String) : String :=
  s ++ String.ofList (List.replicate (width - s.length) ' ')

/-- The texts of a list, separated by a comma and a space. -/
def commaList (items : List String) : String :=
  ", ".intercalate items

example : padRight 4 "ab" = "ab  " := by decide +kernel

end Bindle.Text
