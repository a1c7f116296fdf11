/-!
# The structure of a JSON text

A `Raw` value is what the grammar of JSON says of a text and no more: numbers are kept as their
digits and strings as their pieces. Whether the numbers are in range, whether the escapes of the
strings make characters, and which of two members of one name counts, is decided by whoever reads
the structure. A part that nobody reads is held to the grammar alone.
-/

namespace PackedColumn.Json

/-- A number as it is written. -/
structure NumberText where
  negative : Bool
  /-- The digits before the point. -/
  whole : List Char
  /-- The digits after the point, if there is one. -/
  fraction : Option (List Char)
  /-- Whether the exponent has a minus, and its digits, if there is one. -/
  exponent : Option (Bool × List Char)
deriving DecidableEq, Repr

/-- One character of a string, or one escape `\uXXXX` with its UTF-16 code unit. -/
inductive Piece where
  | char (c : Char)
  | unit (code : Nat)
deriving DecidableEq, Repr

/-- The structure of a JSON value. -/
inductive Raw where
  | null
  | bool (b : Bool)
  | number (text : NumberText)
  | string (pieces : List Piece)
  | array (items : List Raw)
  | object (members : List (List Piece × Raw))

namespace Raw

mutual

/-- The greatest number of arrays and objects around one another. -/
def depth : Raw → Nat
  | .array items => itemsDepth items + 1
  | .object members => membersDepth members + 1
  | _ => 0

/-- The greatest depth of an item. -/
def itemsDepth : List Raw → Nat
  | [] => 0
  | item :: rest => max item.depth (itemsDepth rest)

/-- The greatest depth of a member's value. -/
def membersDepth : List (List Piece × Raw) → Nat
  | [] => 0
  | (_, value) :: rest => max value.depth (membersDepth rest)

end

end Raw

end PackedColumn.Json
