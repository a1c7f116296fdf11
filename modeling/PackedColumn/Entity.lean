import PackedColumn.Access

/-!
# Entities and their dynamic column

An entity is a table, the name of the column that holds its packed attributes, if it was given one,
and the columns that the table is known to have. Without known columns every column is taken to
exist.

Requests on an entity resolve its dynamic column first: without one they fail, and name the
attribute that was asked for, before the name or the value is looked at.
-/

namespace PackedColumn

/-- A packed column, behind its table if the table is known. -/
structure Column where
  table : Option String
  name : String
deriving DecidableEq

namespace Column

/-- The column's own name. -/
def quoted (c : Column) (d : Dialect) : String := d.quoteSimpleName c.name

/-- The column's name behind its table's. -/
def qualified (c : Column) (d : Dialect) : String :=
  match c.table with
  | some table => d.quoteTableName table ++ "." ++ c.quoted d
  | none => c.quoted d

end Column

/-- A table whose attributes are packed into one column. -/
structure Entity where
  table : String
  /-- The name of the dynamic column, if one was configured. -/
  dynamicColumn : Option String
  /-- The columns of the table, or nothing when they are not known. -/
  columns : List String
deriving DecidableEq

namespace Entity

/-- The configured name of the dynamic column; empty when there is none. -/
def columnName (e : Entity) : String := e.dynamicColumn.getD ""

/-- The dynamic column, if one was configured and the table is not known to lack it. -/
def column? (e : Entity) : Option Column :=
  if e.columnName = "" then none
  else if e.columns = [] ∨ e.columnName ∈ e.columns then some ⟨some e.table, e.columnName⟩
  else none

/-- The dynamic column. -/
def column (e : Entity) : Except CompileError Column :=
  match e.column? with
  | some c => .ok c
  | none => .error (.unknownAttribute e.table e.columnName)

/-- The dynamic column, for a request of the attribute `name`. -/
def columnFor (e : Entity) (name : String) : Except CompileError Column :=
  match e.column? with
  | some c => .ok c
  | none => .error (.unknownAttribute e.table name)

variable (d : Dialect)

/-- Reads an attribute of the entity. -/
def read (e : Entity) (name : String) (typeText? : Option String) : Request String := do
  let c ← Request.ofExcept (e.columnFor name)
  Access.readNamed d (c.qualified d) name typeText?

/-- The dynamic column with an attribute written. -/
def write (e : Entity) (name : String) (value : Value) (typeText? : Option String) :
    Request String := do
  let c ← Request.ofExcept (e.columnFor name)
  Access.writeNamed d (c.qualified d) name value typeText?

/-- The assignment that writes an attribute in an update. -/
def assign (e : Entity) (name : String) (value : Value) (typeText? : Option String) :
    Request String := do
  let c ← Request.ofExcept (e.columnFor name)
  let written ← e.write d name value typeText?
  return c.quoted d ++ " = " ++ written

end Entity

end PackedColumn
