import PackedColumn.Event
import PackedColumn.Expr

/-!
# Access to attributes

The SQL that reads and writes one attribute of a packed column, and the SQL that builds a whole
column. `column` is the SQL text of the column.

A request by name takes the name apart first and fails if it is no path. A type outside the grammar
is no failure: it is reported and left out of account.
-/

namespace PackedColumn.Access

variable (d : Dialect) (column : String)

/-- Reads the attribute at `path`. -/
def read (path : Path) (type? : Option SqlType) : Traced String := do
  Traced.emit (.readCompiled path.display ((Cast.ofType? type?).render d))
  return ((Expr.column column).read path type?).render d

/-- The column with the attribute at `path` written. -/
def write (path : Path) (value : Value) (type? : Option SqlType) : Traced String := do
  Traced.emit (.writeCompiled path.display value.describe value.isRemoval)
  return ((Expr.column column).write path value type?).render d

/-- The type that a text spells for the attribute `name`. -/
def namedType (name : String) : Option String → Traced (Option SqlType)
  | none => pure none
  | some text =>
    match SqlType.parse? text with
    | some type => pure (some type)
    | none => do
      Traced.emit (.typeIgnored name text)
      return none

/-- Reads the attribute with a dotted name. -/
def readNamed (name : String) (typeText? : Option String) : Request String := do
  let path ← Request.ofExcept (Path.parse name)
  let type? ← namedType name typeText?
  read d column path type?

/-- Reads the attribute with the given segments. -/
def readSegments (segments : List String) (type? : Option SqlType) : Request String := do
  let path ← Request.ofExcept (Path.ofSegments segments)
  read d column path type?

/-- The column with the attribute of a dotted name written. -/
def writeNamed (name : String) (value : Value) (typeText? : Option String) : Request String := do
  let path ← Request.ofExcept (Path.parse name)
  let type? ← namedType name typeText?
  write d column path value type?

theorem value_read (path : Path) (type? : Option SqlType) :
    (read d column path type?).value = ((Expr.column column).read path type?).render d := rfl

theorem value_write (path : Path) (value : Value) (type? : Option SqlType) :
    (write d column path value type?).value =
      ((Expr.column column).write path value type?).render d := rfl

theorem outcome_parse {name : String} {path : Path} (h : Path.parse? name = some path) :
    (Request.ofExcept (Path.parse name)).outcome = .ok path := by
  rw [Request.outcome_ofExcept, Path.parse, h]

/-- A name that spells a path is read at that path. -/
theorem outcome_readNamed {name : String} {path : Path} (h : Path.parse? name = some path)
    (typeText? : Option String) : (readNamed d column name typeText?).outcome =
      .ok (read d column path (namedType name typeText?).value).value := by
  rw [readNamed, Request.outcome_bind_of_ok _ (outcome_parse h)]
  rfl

theorem outcome_writeNamed {name : String} {path : Path} (h : Path.parse? name = some path)
    (value : Value) (typeText? : Option String) :
    (writeNamed d column name value typeText?).outcome =
      .ok (write d column path value (namedType name typeText?).value).value := by
  rw [writeNamed, Request.outcome_bind_of_ok _ (outcome_parse h)]
  rfl

/-- The column that holds the given attributes. -/
def create (members : Entries Json) : Except CompileError String :=
  (Expr.ofMembers members).map (·.render d)

end PackedColumn.Access
