import PackedColumn.Json
import PackedColumn.Double.Shortest

/-!
# JSON text

The compact text of a value: no blanks, members in stored order, and in strings only what JSON
demands is escaped.

A double is written with the fewest digits that read back, positionally from `10 ^ -5` up to but
not including `10 ^ 16`, where a whole number keeps a zero behind its point, and else as one digit,
an optional fraction and a signed exponent.
-/

namespace PackedColumn.Json

/-! ## Strings -/

/-- The lowercase hexadecimal digit of a number below sixteen. -/
def hexDigit (n : Nat) : Char := (Nat.digitChar n)

/-- A character inside a string. -/
def escape (c : Char) : List Char :=
  if c = '"' then ['\\', '"']
  else if c = '\\' then ['\\', '\\']
  else if c = '\x08' then ['\\', 'b']
  else if c = '\t' then ['\\', 't']
  else if c = '\n' then ['\\', 'n']
  else if c = '\x0c' then ['\\', 'f']
  else if c = '\r' then ['\\', 'r']
  else if c.toNat < 0x20 then
    ['\\', 'u', '0', '0', hexDigit (c.toNat / 16), hexDigit (c.toNat % 16)]
  else [c]

/-- A string between quotes. -/
def quotedChars (s : String) : List Char := '"' :: (s.toList.flatMap escape ++ ['"'])

/-! ## Numbers -/

/-- A decimal with one digit before the point and a signed exponent. -/
def scientificChars (x : Decimal) : List Char :=
  let mantissa :=
    match x.digitChars with
    | [] => []
    | [d] => [d]
    | d :: rest => d :: '.' :: rest
  let e := x.point - 1
  mantissa ++ 'e' :: (if e < 0 then '-' else '+') :: Nat.toDigits 10 e.natAbs

/-- A decimal as JSON writes the magnitude of a double. -/
def decimalChars (x : Decimal) : List Char :=
  if -5 < x.point ∧ x.point ≤ 16 then
    if x.fractionChars.isEmpty then x.wholeChars ++ ['.', '0'] else x.positional
  else scientificChars x

/-- A double, with its sign. -/
def doubleChars (x : Double) : List Char :=
  let magnitude := decimalChars (x.shortest .toEven)
  if x.negative then '-' :: magnitude else magnitude

/-- A whole number in decimal digits. -/
def wholeChars (n : Int) : List Char :=
  if n < 0 then '-' :: Nat.toDigits 10 n.natAbs else Nat.toDigits 10 n.natAbs

/-- A number. -/
def Number.chars : Number → List Char
  | .whole n => wholeChars n
  | .double x => doubleChars x

/-! ## Values -/

/-- The parts with a comma between neighbours. -/
def commaSeparated (parts : List (List Char)) : List Char := List.intercalate [','] parts

mutual

/-- The text of a value. -/
def chars : Json → List Char
  | .null => "null".toList
  | .bool b => if b then "true".toList else "false".toList
  | .number n => n.chars
  | .string s => quotedChars s
  | .array items => '[' :: (commaSeparated (itemChars items) ++ [']'])
  | .object members => '{' :: (commaSeparated (memberChars members) ++ ['}'])

/-- The texts of the items. -/
def itemChars : List Json → List (List Char)
  | [] => []
  | item :: rest => chars item :: itemChars rest

/-- The texts of the members. -/
def memberChars : List (String × Json) → List (List Char)
  | [] => []
  | (name, value) :: rest => (quotedChars name ++ ':' :: chars value) :: memberChars rest

end

/-- The compact text of a value. -/
def compact (value : Json) : String := .ofList value.chars

end PackedColumn.Json
