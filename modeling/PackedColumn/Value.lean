import PackedColumn.Dialect
import PackedColumn.Error

/-!
# Attribute values

The value that a caller writes into an attribute: a scalar, or one of the two ways to say that the
attribute goes away. Each kind of scalar has a SQL literal and a default type.
-/

namespace PackedColumn

/-- A value that SQL can hold. -/
inductive Scalar where
  | bool (b : Bool)
  | integer (n : Int)
  /-- A whole number that is too large for a signed word. -/
  | unsigned (n : Nat)
  | double (x : Double)
  | text (s : String)
deriving DecidableEq, Repr

/-- What is written into an attribute. -/
inductive Value where
  /-- Nothing was given. -/
  | absent
  | null
  | scalar (s : Scalar)
deriving DecidableEq, Repr

/-- The kinds of values. -/
inductive ValueKind where
  | integer
  | unsigned
  | double
  | text
  | boolean
  | null
  | absent
deriving DecidableEq, Repr

/-- The keyword of the type that a kind is stored as; `none` when the attribute is removed. -/
def ValueKind.keyword? : ValueKind → Option TypeKeyword
  | .integer => some .integer
  | .unsigned => some .unsigned
  | .double => some .double
  | .text => some .char
  | .boolean => some .integer
  | .null => none
  | .absent => none

/-- A double as SQL writes it: the fewest digits that read back, never with an exponent, and with a
point only where a fraction follows. -/
def Double.sqlText (x : Double) : String :=
  let magnitude := (x.shortest .up).positional
  .ofList (if x.negative then '-' :: magnitude else magnitude)

namespace Scalar

/-- The kind of the scalar. -/
def kind : Scalar → ValueKind
  | bool _ => .boolean
  | integer _ => .integer
  | unsigned _ => .unsigned
  | double _ => .double
  | text _ => .text

/-- The SQL literal. -/
def literal (d : Dialect) : Scalar → String
  | bool b => if b then "1" else "0"
  | integer n => toString n
  | unsigned n => toString n
  | double x => x.sqlText
  | text s => d.quoteString s

/-- The type that a scalar is stored as when the caller names none. -/
def defaultType : Scalar → SqlType
  | bool _ => .plain .integer
  | integer _ => .plain .integer
  | unsigned _ => ⟨.unsigned, "UNSIGNED INTEGER", none⟩
  | double _ => .plain .double
  | text _ => .plain .char

/-- The scalar with the initial of its kind, as logs show it. -/
def describe : Scalar → String
  | bool b => "b: " ++ (if b then "true" else "false")
  | integer n => "i: " ++ toString n
  | unsigned n => "u: " ++ toString n
  | double x => "f: " ++ x.sqlText
  | text s => "s: \"" ++ s ++ "\""

/-- The description inside the name of the kind. -/
def inspect (s : Scalar) : String :=
  let name := match s with
    | bool _ => "Bool"
    | integer _ => "Int"
    | unsigned _ => "UInt"
    | double _ => "Float"
    | text _ => "Text"
  name ++ "(" ++ s.describe ++ ")"

/-- The scalar of a whole number: unsigned where a signed word does not suffice. -/
def ofInt (n : Int) : Scalar := if n < signedBound then integer n else unsigned n.toNat

/-- The scalar of a number. -/
def ofNumber : Json.Number → Scalar
  | .whole n => ofInt n
  | .double x => double x

end Scalar

namespace Value

/-- The kind of the value. -/
def kind : Value → ValueKind
  | absent => .absent
  | null => .null
  | scalar s => s.kind

/-- Whether writing the value takes the attribute away. -/
def isRemoval : Value → Bool
  | absent | null => true
  | scalar _ => false

/-- The scalar, if the value is one. -/
def scalar? : Value → Option Scalar
  | absent | null => none
  | scalar s => some s

/-- The SQL literal; `none` for a removal. -/
def literal? (d : Dialect) (v : Value) : Option String := v.scalar?.map (·.literal d)

/-- The type that the value is stored as when the caller names none; `none` for a removal. -/
def defaultType? (v : Value) : Option SqlType := v.scalar?.map (·.defaultType)

/-- The value as logs show it. -/
def describe : Value → String
  | absent => "absent"
  | null => "NULL"
  | scalar s => s.describe

/-- The value with the name of its kind. -/
def inspect : Value → String
  | absent => "Absent"
  | null => "Null"
  | scalar s => s.inspect

/-- The value of an attribute whose decoded form is `json`; `path` names it in an error. -/
def ofJson (path : String) : Json → Except CompileError Value
  | .null => .ok null
  | .bool b => .ok (scalar (.bool b))
  | .number n => .ok (scalar (.ofNumber n))
  | .string s => .ok (scalar (.text s))
  | .array _ => .error (.unsupportedValue path .array)
  | .object _ => .error (.unsupportedValue path .object)

/-- The value of a machine float; `none` for infinities and NaN, which no literal denotes. -/
def ofFloat? (x : Float) : Option Value := (Double.ofFloat? x).map fun d => scalar (.double d)

/-- The value that may be missing: nothing is written as null. -/
def ofOption : Option Value → Value
  | none => null
  | some v => v

end Value

end PackedColumn
