import PackedColumn.Json
import PackedColumn.Json.Nesting

/-!
# The value of a JSON text

`Json.parse?` reads a text strictly: strings have to make characters, numbers have to be finite,
and arrays and objects may nest `maxDepth` deep. Of two members of one name the later value counts,
in the place of the earlier one.

A number without fraction and exponent keeps its value as a whole number when it fits 64 bits. Any
other number is read as a double in two steps, as fast readers of numbers do: the digits are
gathered into a significand as far as 64 bits go, and the significand's double is scaled by a power
of ten. Each step rounds, so the result can differ from the nearest double in its last bits.
-/

namespace PackedColumn.Json

/-! ## Numbers -/

namespace NumberText

/-- Appends digits to a significand as long as it fits a word; also the digits that are
left. -/
def gather (significand : Nat) : List Char → Nat × List Char
  | [] => (significand, [])
  | d :: rest =>
    let next := 10 * significand + (d.toNat - '0'.toNat)
    if next < wordBound then gather next rest else (significand, d :: rest)

/-- A number without fraction and exponent whose digits fit 64 bits. A negative zero is a double,
and so is a negative number below the range of signed words. -/
def wholeNumber? (negative : Bool) (magnitude : Nat) : Option Number :=
  if !negative then some (.whole magnitude)
  else if magnitude = 0 then some (.double (.zero true))
  else if magnitude ≤ signedBound then some (.whole (-(magnitude : Int)))
  else (Double.ofRatio? true magnitude 1).map .double

/-- The power of ten that the exponent asks for. -/
def exponentValue (text : NumberText) : Int :=
  match text.exponent with
  | none => 0
  | some (negative, digits) =>
    let value : Int := Nat.ofDigitChars 10 digits 0
    if negative then -value else value

/-- The number that is written; `none` when it is too large for a double. -/
def number? (text : NumberText) : Option Number :=
  let whole := gather 0 text.whole
  if text.fraction.isNone && text.exponent.isNone && whole.2.isEmpty then
    wholeNumber? text.negative whole.1
  else
    let fraction := text.fraction.getD []
    let all := gather whole.1 fraction
    let shift : Int := (whole.2.length : Int) - (fraction.length - all.2.length : Nat)
    (Double.ofRatio? false all.1 1).bind fun significand =>
      (significand.scaleByPowerOfTen? (shift + text.exponentValue)).map fun magnitude =>
        .double (if text.negative then magnitude.neg else magnitude)

end NumberText

/-! ## Strings -/

namespace Piece

/-- The first code unit of the leading halves of surrogate pairs. -/
def leadingStart : Nat := 0xd800

/-- The first code unit of the trailing halves of surrogate pairs. -/
def trailingStart : Nat := 0xdc00

/-- The first code unit after the surrogates. -/
def surrogateEnd : Nat := 0xe000

/-- The character of a surrogate pair. -/
def pairChar (leading trailing : Nat) : Char :=
  .ofNat (0x10000 + (leading - leadingStart) * 0x400 + (trailing - trailingStart))

/-- The characters of a string; `none` when half of a surrogate pair stands alone. -/
def chars? : List Piece → Option (List Char)
  | [] => some []
  | .char c :: rest => (chars? rest).map (c :: ·)
  | .unit code :: rest =>
    if code < leadingStart ∨ surrogateEnd ≤ code then (chars? rest).map (Char.ofNat code :: ·)
    else if trailingStart ≤ code then none
    else
      match rest with
      | .unit trailing :: rest =>
        if trailingStart ≤ trailing ∧ trailing < surrogateEnd then
          (chars? rest).map (pairChar code trailing :: ·)
        else none
      | _ => none

/-- The string of the pieces. -/
def text? (pieces : List Piece) : Option String := (chars? pieces).map String.ofList

end Piece

/-! ## Values -/

namespace Raw

mutual

/-- The value of a structure, whatever its depth. -/
def value? : Raw → Option Json
  | .null => some .null
  | .bool b => some (.bool b)
  | .number text => text.number?.map .number
  | .string pieces => (Piece.text? pieces).map .string
  | .array items => (items? items).map .array
  | .object members => (members? members).map fun ms => .object (Entries.collect ms)

/-- The values of the items. -/
def items? : List Raw → Option (List Json)
  | [] => some []
  | item :: rest => (value? item).bind fun v => (items? rest).map (v :: ·)

/-- The names and values of the members. -/
def members? : List (List Piece × Raw) → Option (List (String × Json))
  | [] => some []
  | (key, item) :: rest =>
    (Piece.text? key).bind fun name =>
      (value? item).bind fun v => (members? rest).map ((name, v) :: ·)

end

end Raw

/-- How deep arrays and objects of a strictly read text may nest. -/
def maxDepth : Nat := 127

/-- The value of a JSON text; `none` when it is malformed. -/
def parse? (text : String) : Option Json :=
  (Raw.parse? text).bind fun raw => if raw.depth ≤ maxDepth then raw.value? else none

end PackedColumn.Json
