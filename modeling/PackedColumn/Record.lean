import PackedColumn.Entity
import PackedColumn.Json.Read
import PackedColumn.Text

/-!
# Records

The decoded attributes of one record, as the dump of its packed column gives them. Nested levels are
JSON objects and an attribute is addressed by its dotted name.
-/

namespace PackedColumn

/-- The decoded attributes of a record, in stored order. -/
structure Record where
  entries : Entries Json

namespace Record

/-- The record without attributes. -/
def empty : Record := ⟨[]⟩

instance : Inhabited Record := ⟨empty⟩

/-- The record as one JSON object. -/
def toJson (r : Record) : Json := .object r.entries

/-! ## Decoding -/

/-- The record that a JSON value stands for. A null is a record without attributes. -/
def ofJson : Json → Except CompileError Record
  | .null => .ok empty
  | .object members => .ok ⟨members⟩
  | other => .error (.invalidDump (.notAnObject other))

/-- The record that a dump spells. A blank dump is a record without attributes. -/
def ofDump (dump : String) : Except CompileError Record :=
  if (Text.trim dump.toList).isEmpty then .ok empty
  else
    match Json.parse? dump with
    | some value => ofJson value
    | none => .error (.invalidDump .malformed)

/-- The record in a fetched row, where its dump stands under `name` as text or already decoded. -/
def ofRow (row : Entries Json) (name : String) : Except CompileError Record :=
  match Entries.get? name row with
  | none => .ok empty
  | some (.string dump) => ofDump dump
  | some value => ofJson value

/-! ## Attributes -/

/-- The attribute with a dotted name. -/
def get? (r : Record) (name : String) : Option Json :=
  (Path.parse? name).bind fun path => r.toJson.at? path.segments

/-- Whether there is an attribute with a dotted name. -/
def contains (r : Record) (name : String) : Bool := (r.get? name).isSome

/-- The attribute as a value to write. A missing one is absent. -/
def value (r : Record) (name : String) : Except CompileError Value :=
  match r.get? name with
  | some json => Value.ofJson name json
  | none => .ok .absent

/-- The record with an attribute set. Levels on the way that are missing or no objects become
objects. -/
def set (r : Record) (name : String) (value : Json) : Except CompileError Record :=
  (Path.parse name).map fun path => ⟨(Json.setAt value path.segments r.toJson).members⟩

/-- The attribute that is taken out, if there is one, and the record without it. -/
def unset (r : Record) (name : String) : Option Json × Record :=
  match (Path.parse? name).bind fun path => r.toJson.takeAt? path.segments with
  | some (removed, rest) => (some removed, ⟨rest.members⟩)
  | none => (none, r)

/-- Whether there is no attribute. -/
def isEmpty (r : Record) : Bool := r.entries.isEmpty

mutual

/-- The leaves of a value with their dotted names: a value that is no object is the leaf `name`. -/
def leaves (name : String) : Json → List (String × Json)
  | .object members => memberLeaves name members
  | leaf => [(name, leaf)]

/-- The leaves of the members of the object `name`. -/
def memberLeaves (name : String) : List (String × Json) → List (String × Json)
  | [] => []
  | (key, value) :: rest => leaves (name ++ "." ++ key) value ++ memberLeaves name rest

end

/-- The leaves under their dotted names, in stored order. Of two leaves with one name the later
counts, in the place of the earlier. -/
def flatten (r : Record) : Entries Json :=
  Entries.collect (r.entries.flatMap fun e => leaves e.1 e.2)

/-! ## SQL -/

/-- The SQL that builds the whole column. -/
def create (r : Record) (d : Dialect) : Except CompileError String := Access.create d r.entries

end Record

/-- The dynamic column with an attribute written as the record holds it. -/
def Entity.writeCurrent (d : Dialect) (e : Entity) (r : Record) (name : String)
    (typeText? : Option String) : Request String := do
  let value ← Request.ofExcept (r.value name)
  e.write d name value typeText?

end PackedColumn
