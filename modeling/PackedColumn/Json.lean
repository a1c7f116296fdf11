import PackedColumn.Double
import PackedColumn.Entries

/-!
# JSON values

The value of a JSON text. Whole numbers are kept apart from doubles, and the members of an object
keep the order in which their names first came.

* `at?` follows member names into nested objects.
* `setAt` writes a value at the end of such a walk and makes the objects that are missing.
* `takeAt?` takes a member out of the object that holds it.
-/

namespace PackedColumn

/-- A number of a JSON text. -/
inductive Json.Number where
  /-- A number written without fraction and exponent. -/
  | whole (n : Int)
  /-- Any other number. -/
  | double (x : Double)
deriving DecidableEq, Repr

/-- A JSON value. -/
inductive Json where
  | null
  | bool (b : Bool)
  | number (n : Json.Number)
  | string (s : String)
  | array (items : List Json)
  | object (members : List (String × Json))

namespace Json

/-- The members of an object; nothing else has any. -/
def members : Json → Entries Json
  | .object ms => ms
  | _ => []

/-- The value at the end of the walk along `names`. -/
def at? : List String → Json → Option Json
  | [], value => some value
  | name :: rest, .object ms => (Entries.get? name ms).bind (at? rest)
  | _ :: _, _ => none

/-- `target` with `value` at the end of the walk along `names`. A level of the walk that is missing
or is no object becomes an object with the one member that the walk needs. -/
def setAt (value : Json) : List String → Json → Json
  | [], _ => value
  | name :: rest, target =>
    let old := (Entries.get? name target.members).getD .null
    .object (Entries.put name (setAt value rest old) target.members)

/-- The value at the end of the walk along `names`, and what remains when it is taken out of its
object; `none` when the walk leads nowhere. -/
def takeAt? : List String → Json → Option (Json × Json)
  | [name], .object ms => (Entries.take? name ms).map fun found => (found.1, .object found.2)
  | name :: rest, .object ms =>
    (Entries.get? name ms).bind fun child =>
      (takeAt? rest child).map fun found =>
        (found.1, .object (Entries.put name found.2 ms))
  | _, _ => none

end Json

end PackedColumn
