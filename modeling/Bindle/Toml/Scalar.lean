import Bindle.Toml.Value
import Bindle.Json.Reader

/-!
# Texts, numbers and date-times of TOML

Readers for the values that hold no other value. Each takes the characters in front and gives the
value with the rest, or nothing. A line ends in a line feed with or without a carriage return
before it, and inside a text of several lines both count as a line feed.

Main definitions: `readBasicText`, `readLiteralText`, `readLongBasicText`, `readLongLiteralText`,
`readNumber`, `readDateTime`.
-/

namespace Bindle.Toml

/-! ## Characters -/

/-- White space inside a line. -/
def isLineSpace (c : Char) : Bool := c == ' ' || c == '\t'

/-- The rest after white space inside a line. -/
def skipLineSpace (cs : List Char) : List Char := cs.dropWhile isLineSpace

/-- The characters of comments and texts: no control characters but the tab. -/
def isTextChar (c : Char) : Bool := c == '\t' || (c.toNat ≥ 0x20 && c.toNat != 0x7F)

/-- The rest after a line ending. -/
def readNewline? : List Char → Option (List Char)
  | '\n' :: rest => some rest
  | '\r' :: '\n' :: rest => some rest
  | _ => none

/-- The rest after white space and line endings. -/
def skipLines : List Char → List Char
  | ' ' :: rest => skipLines rest
  | '\t' :: rest => skipLines rest
  | '\n' :: rest => skipLines rest
  | '\r' :: '\n' :: rest => skipLines rest
  | cs => cs

/-! ## Texts -/

/-- The character with a code point given in hexadecimal. -/
def scalar? (digits : List Char) : Option Char := do
  let values ← digits.mapM Json.hexValue?
  let n := values.foldl (fun acc d => 16 * acc + d) 0
  if n.isValidChar then return Char.ofNat n else none

/-- The character after a backslash, with the rest. -/
def readEscape : List Char → Option (Char × List Char)
  | 'b' :: rest => some ('\x08', rest)
  | 't' :: rest => some ('\t', rest)
  | 'n' :: rest => some ('\n', rest)
  | 'f' :: rest => some ('\x0c', rest)
  | 'r' :: rest => some ('\r', rest)
  | '"' :: rest => some ('"', rest)
  | '\\' :: rest => some ('\\', rest)
  | 'u' :: rest =>
    if rest.length < 4 then none else (scalar? (rest.take 4)).map (·, rest.drop 4)
  | 'U' :: rest =>
    if rest.length < 8 then none else (scalar? (rest.take 8)).map (·, rest.drop 8)
  | _ => none

/-- A basic text after its opening quotation mark, in at most `fuel` steps. -/
def readBasicText : Nat → List Char → Option (List Char × List Char)
  | 0, _ => none
  | fuel + 1, cs =>
    match cs with
    | [] => none
    | '"' :: rest => some ([], rest)
    | '\\' :: rest => do
      let (c, rest) ← readEscape rest
      let (text, rest) ← readBasicText fuel rest
      return (c :: text, rest)
    | c :: rest =>
      if isTextChar c then do
        let (text, rest) ← readBasicText fuel rest
        return (c :: text, rest)
      else none

/-- A literal text after its opening apostrophe. -/
def readLiteralText : List Char → Option (List Char × List Char)
  | [] => none
  | '\'' :: rest => some ([], rest)
  | c :: rest =>
    if isTextChar c then (readLiteralText rest).map fun (text, rest) => (c :: text, rest)
    else none

/-- The rest after a backslash that joins two lines: white space, a line ending, and all the white
space and line endings after it. -/
def readJoint? (cs : List Char) : Option (List Char) :=
  (readNewline? (skipLineSpace cs)).map skipLines

/-- What closes a text of several lines: up to two quotes of the text and three that close it. -/
def readClosing (quote : Char) : List Char → List Char × List Char
  | a :: b :: rest =>
    if a = quote then
      if b = quote then ([quote, quote], rest) else ([quote], b :: rest)
    else ([], a :: b :: rest)
  | [a] => if a = quote then ([quote], []) else ([], [a])
  | [] => ([], [])

/-- A basic text of several lines, after its opening and the line ending right after that. -/
def readLongBasicText : Nat → List Char → Option (List Char × List Char)
  | 0, _ => none
  | fuel + 1, cs =>
    match cs with
    | [] => none
    | '"' :: '"' :: '"' :: rest => some (readClosing '"' rest)
    | '\\' :: rest =>
      match readJoint? rest with
      | some rest => readLongBasicText fuel rest
      | none => do
        let (c, rest) ← readEscape rest
        let (text, rest) ← readLongBasicText fuel rest
        return (c :: text, rest)
    | c :: rest =>
      match readNewline? (c :: rest) with
      | some rest => do
        let (text, rest) ← readLongBasicText fuel rest
        return ('\n' :: text, rest)
      | none =>
        if isTextChar c then do
          let (text, rest) ← readLongBasicText fuel rest
          return (c :: text, rest)
        else none

/-- A literal text of several lines, after its opening and the line ending right after that. -/
def readLongLiteralText : Nat → List Char → Option (List Char × List Char)
  | 0, _ => none
  | fuel + 1, cs =>
    match cs with
    | [] => none
    | '\'' :: '\'' :: '\'' :: rest => some (readClosing '\'' rest)
    | c :: rest =>
      match readNewline? (c :: rest) with
      | some rest => do
        let (text, rest) ← readLongLiteralText fuel rest
        return ('\n' :: text, rest)
      | none =>
        if isTextChar c then do
          let (text, rest) ← readLongLiteralText fuel rest
          return (c :: text, rest)
        else none

/-- A text of any of the four kinds. -/
def readAnyText (cs : List Char) : Option (List Char × List Char) :=
  match cs with
  | '"' :: '"' :: '"' :: rest =>
    readLongBasicText (rest.length + 1) ((readNewline? rest).getD rest)
  | '\'' :: '\'' :: '\'' :: rest =>
    readLongLiteralText (rest.length + 1) ((readNewline? rest).getD rest)
  | '"' :: rest => readBasicText (rest.length + 1) rest
  | '\'' :: rest => readLiteralText rest
  | _ => none

/-! ## Numbers -/

/-- More digits, each of which may have an underscore before it. -/
def readMoreDigits (isDigit : Char → Bool) : List Char → List Char × List Char
  | '_' :: d :: rest =>
    if isDigit d then
      let (digits, rest) := readMoreDigits isDigit rest
      (d :: digits, rest)
    else ([], '_' :: d :: rest)
  | d :: rest =>
    if isDigit d then
      let (digits, rest) := readMoreDigits isDigit rest
      (d :: digits, rest)
    else ([], d :: rest)
  | [] => ([], [])

/-- Digits, at least one; underscores stand between two digits only. -/
def readDigits? (isDigit : Char → Bool) : List Char → Option (List Char × List Char)
  | d :: rest =>
    if isDigit d then
      let (digits, rest) := readMoreDigits isDigit rest
      some (d :: digits, rest)
    else none
  | [] => none

/-- A sign, if there is one; the flag says whether it is a minus. -/
def readSign : List Char → Bool × List Char
  | '-' :: rest => (true, rest)
  | '+' :: rest => (false, rest)
  | cs => (false, cs)

/-- The digits of a decimal integer, which has no superfluous zero in front. -/
def readDecimalDigits? : List Char → Option (List Char × List Char)
  | '0' :: rest => some (['0'], rest)
  | cs => readDigits? Char.isDigit cs

/-- The number with the given digits. -/
def ofDigits (base : Nat) (digits : List Char) : Nat :=
  digits.foldl (fun acc d => base * acc + (Json.hexValue? d).getD 0) 0

/-- Whether an integer has a place in 64 bits. -/
def fitsInt64 (n : Int) : Bool := Int64.minValue.toInt ≤ n && n ≤ Int64.maxValue.toInt

/-- An integer in the given base, after its prefix. -/
def readBased (base : Nat) (isDigit : Char → Bool) (cs : List Char) :
    Option (Toml × List Char) := do
  let (digits, rest) ← readDigits? isDigit cs
  let n := ofDigits base digits
  if fitsInt64 n then return (.integer n, rest) else none

/-- The exponent in front, if there is one: its text and its value. -/
def readExponent : List Char → Option (List Char × Int × List Char)
  | c :: rest =>
    if c = 'e' ∨ c = 'E' then do
      let (negative, rest) := readSign rest
      let (digits, rest) ← readDigits? Char.isDigit rest
      let n : Int := ofDigits 10 digits
      let sign := if negative then ['-'] else []
      return ('e' :: sign ++ digits, if negative then -n else n, rest)
    else some ([], 0, c :: rest)
  | [] => some ([], 0, [])

/-- The fraction in front, if there is one: its digits. -/
def readFraction : List Char → Option (List Char × List Char)
  | '.' :: rest => readDigits? Char.isDigit rest
  | cs => some ([], cs)

/-- The least number that is nearer to infinity than to the greatest finite number of 64 bits:
halfway from that number to the next power of two. -/
def overflowBound : Nat := ((1 <<< 54) - 1) <<< 970

/-- Whether the number with these digits, times a power of ten, has no finite value in 64 bits. -/
def overflows (digits : List Char) (exponent : Int) : Bool :=
  let significant := digits.dropWhile (· == '0')
  let top := significant.length + exponent
  if significant = [] ∨ top ≤ 308 then false
  else if top > 310 then true
  else
    let n := ofDigits 10 significant
    if exponent ≥ 0 then overflowBound ≤ n * Nat.pow 10 exponent.toNat
    else overflowBound * Nat.pow 10 (-exponent).toNat ≤ n

/-- A number that is not a number, or an infinite one. -/
def readSpecial (negative : Bool) : List Char → Option (Toml × List Char)
  | 'i' :: 'n' :: 'f' :: rest => some (.float (if negative then "-inf" else "inf"), rest)
  | 'n' :: 'a' :: 'n' :: rest => some (.float "nan", rest)
  | _ => none

/-- A decimal number: an integer, or with a fraction or an exponent a floating-point number. One
that is too large for 64 bits is refused, except that a negative floating-point number may be. -/
def readDecimal (cs : List Char) : Option (Toml × List Char) := do
  let (negative, rest) := readSign cs
  match readSpecial negative rest with
  | some special => return special
  | none =>
    let (digits, rest) ← readDecimalDigits? rest
    let (fraction, rest) ← readFraction rest
    let (exponentText, exponent, rest) ← readExponent rest
    if fraction = [] ∧ exponentText = [] then
      let n : Int := ofDigits 10 digits
      let n := if negative then -n else n
      if fitsInt64 n then return (.integer n, rest) else none
    else
      if !negative && overflows (digits ++ fraction) (exponent - fraction.length) then none
      let sign := if negative then ['-'] else []
      let point := if fraction = [] then [] else '.' :: fraction
      return (.float (String.ofList (sign ++ digits ++ point ++ exponentText)), rest)

/-- A hexadecimal digit. -/
def isHexDigit (c : Char) : Bool := (Json.hexValue? c).isSome

/-- A number of any kind. -/
def readNumber (cs : List Char) : Option (Toml × List Char) :=
  match cs with
  | '0' :: 'x' :: rest => readBased 16 isHexDigit rest
  | '0' :: 'o' :: rest => readBased 8 (fun c => '0' ≤ c && c ≤ '7') rest
  | '0' :: 'b' :: rest => readBased 2 (fun c => c == '0' || c == '1') rest
  | cs => readDecimal cs

/-! ## Date-times -/

/-- A number of exactly `count` digits, as text and as value. -/
def readFixed (count : Nat) (cs : List Char) : Option (List Char × Nat × List Char) :=
  let digits := cs.take count
  if digits.length = count ∧ digits.all Char.isDigit then
    some (digits, ofDigits 10 digits, cs.drop count)
  else none

/-- The rest after a given character. -/
def readChar? (c : Char) : List Char → Option (List Char)
  | d :: rest => if d = c then some rest else none
  | [] => none

/-- The number of days of a month. -/
def daysInMonth (year month : Nat) : Nat :=
  if month = 2 then
    if year % 4 = 0 ∧ (year % 100 ≠ 0 ∨ year % 400 = 0) then 29 else 28
  else if month = 4 ∨ month = 6 ∨ month = 9 ∨ month = 11 then 30
  else 31

/-- A date that is in the calendar. -/
def readDate (cs : List Char) : Option (List Char × List Char) := do
  let (yearText, year, cs) ← readFixed 4 cs
  let cs ← readChar? '-' cs
  let (monthText, month, cs) ← readFixed 2 cs
  let cs ← readChar? '-' cs
  let (dayText, day, cs) ← readFixed 2 cs
  if 1 ≤ month ∧ month ≤ 12 ∧ 1 ≤ day ∧ day ≤ daysInMonth year month then
    return (yearText ++ '-' :: monthText ++ '-' :: dayText, cs)
  else none

/-- A fraction of a second in nanoseconds: further digits are dropped, and zeros at the end. -/
def secondFraction (digits : List Char) : List Char :=
  match ((digits.take 9).reverse.dropWhile (· == '0')).reverse with
  | [] => []
  | kept => '.' :: kept

/-- The time of a day; a leap second is allowed. -/
def readTime (cs : List Char) : Option (List Char × List Char) := do
  let (hourText, hour, cs) ← readFixed 2 cs
  let cs ← readChar? ':' cs
  let (minuteText, minute, cs) ← readFixed 2 cs
  let cs ← readChar? ':' cs
  let (secondText, second, cs) ← readFixed 2 cs
  let (fraction, cs) ← match cs with
    | '.' :: rest =>
      match rest.takeWhile Char.isDigit with
      | [] => none
      | digits => some (secondFraction digits, rest.dropWhile Char.isDigit)
    | cs => some ([], cs)
  if hour ≤ 23 ∧ minute ≤ 59 ∧ second ≤ 60 then
    return (hourText ++ ':' :: minuteText ++ ':' :: secondText ++ fraction, cs)
  else none

/-- The distance from universal time, if it is given. -/
def readOffset (cs : List Char) : Option (List Char × List Char) :=
  match cs with
  | 'Z' :: rest => some (['Z'], rest)
  | 'z' :: rest => some (['Z'], rest)
  | c :: rest =>
    if c = '+' ∨ c = '-' then do
      let (hourText, hour, rest) ← readFixed 2 rest
      let rest ← readChar? ':' rest
      let (minuteText, minute, rest) ← readFixed 2 rest
      if hour ≤ 23 ∧ minute ≤ 59 then
        let sign := if hour = 0 ∧ minute = 0 then '+' else c
        return (sign :: hourText ++ ':' :: minuteText, rest)
      else none
    else some ([], cs)
  | [] => some ([], [])

/-- The time after a date, with a letter or one space between them. -/
def readTimeOfDate (cs : List Char) : Option (List Char × List Char) :=
  match cs with
  | c :: rest =>
    if c = 'T' ∨ c = 't' ∨ c = ' ' then do
      let (time, rest) ← readTime rest
      let (offset, rest) ← readOffset rest
      return ('T' :: time ++ offset, rest)
    else none
  | [] => none

/-- A date, a time, or both. -/
def readDateTime (cs : List Char) : Option (Toml × List Char) :=
  match readDate cs with
  | some (date, rest) =>
    match readTimeOfDate rest with
    | some (time, rest) => some (.dateTime (String.ofList (date ++ time)), rest)
    | none => some (.dateTime (String.ofList date), rest)
  | none => (readTime cs).map fun (time, rest) => (.dateTime (String.ofList time), rest)

end Bindle.Toml
