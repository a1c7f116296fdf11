import PackedColumn.SqlType

/-!
# The SQL dialect of packed columns

The names of the functions that read and write a packed column, the quotes, and the types that stand
where a caller names none. Every request takes its dialect explicitly; `Dialect.default` writes the
dynamic columns of MariaDB.

* `quoteString` writes a string literal, `quoteSimpleName`, `quoteTableName` and `quoteColumnName`
  write names.
* `extract`, `set`, `delete`, `dump` and `create` write the calls of the five functions.
-/

namespace PackedColumn

/-- The surface of the SQL functions for packed columns. -/
structure Dialect where
  /-- Reads an entry: `COLUMN_GET(container, 'key' AS type)`. -/
  getFunction : String
  /-- Sets an entry: `COLUMN_ADD(container, 'key', value AS type)`. -/
  addFunction : String
  /-- Removes an entry: `COLUMN_DELETE(container, 'key')`. -/
  deleteFunction : String
  /-- Builds a column: `COLUMN_CREATE('key', value AS type, …)`. -/
  createFunction : String
  /-- Writes a whole column as text: `COLUMN_JSON(container)`. -/
  dumpFunction : String
  /-- The word before a type. -/
  castKeyword : String
  /-- The type of every level of a path but the last. -/
  intermediateType : String
  /-- The type of the last level when the caller names none. -/
  defaultType : String
  /-- The name of the dump in a projection. -/
  dumpAlias : String
  stringQuote : Char
  identifierQuote : Char
  typeCase : TypeCase
deriving DecidableEq

namespace Dialect

/-- The dynamic columns of MariaDB. -/
def default : Dialect where
  getFunction := "COLUMN_GET"
  addFunction := "COLUMN_ADD"
  deleteFunction := "COLUMN_DELETE"
  createFunction := "COLUMN_CREATE"
  dumpFunction := "COLUMN_JSON"
  castKeyword := "AS"
  intermediateType := "BINARY"
  defaultType := "CHAR"
  dumpAlias := "dynamic_columns"
  stringQuote := '\''
  identifierQuote := '`'
  typeCase := .verbatim

instance : Inhabited Dialect := ⟨default⟩

variable (d : Dialect)

/-! ## Literals and names -/

/-- A character inside a string literal: the quote and the backslash take a backslash. -/
def escape (c : Char) : List Char :=
  if c = '\\' ∨ c = d.stringQuote then ['\\', c] else [c]

/-- The string literal of a text. -/
def quoteString (text : String) : String :=
  .ofList (d.stringQuote :: (text.toList.flatMap d.escape ++ [d.stringQuote]))

/-- A name without dots. The star and a name with an identifier quote in it stay as they are. -/
def quoteSimpleName (name : String) : String :=
  if name = "*" ∨ d.identifierQuote ∈ name.toList then name
  else .ofList (d.identifierQuote :: (name.toList ++ [d.identifierQuote]))

/-- Whether a text holds a parenthesis. -/
def isCall (name : String) : Bool := name.toList.contains '('

/-- A name with dots between its parts. Calls and placeholders stay as they are. -/
def quoteTableName (name : String) : String :=
  if isCall name || Text.hasPair '{' name.toList then name
  else ".".intercalate ((name.toList.splitOn '.').map fun part => d.quoteSimpleName (.ofList part))

/-- The name of a column, behind its table's name if there is a dot. Calls and placeholders stay as
they are. -/
def quoteColumnName (name : String) : String :=
  if isCall name || Text.hasPair '[' name.toList || Text.hasPair '{' name.toList then name
  else
    match Text.splitLast '.' name.toList with
    | some (table, column) =>
      d.quoteTableName (.ofList table) ++ "." ++ d.quoteSimpleName (.ofList column)
    | none => d.quoteSimpleName name

/-! ## Calls -/

/-- Reads the entry `key` of `container` as `cast`. -/
def extract (container key cast : String) : String :=
  d.getFunction ++ "(" ++ container ++ ", " ++ d.quoteString key ++ " " ++ d.castKeyword ++ " "
    ++ cast ++ ")"

/-- `container` with `value` as the entry `key`. -/
def set (container key value cast : String) : String :=
  d.addFunction ++ "(" ++ container ++ ", " ++ d.quoteString key ++ ", " ++ value ++ " "
    ++ d.castKeyword ++ " " ++ cast ++ ")"

/-- `container` without the entry `key`. -/
def delete (container key : String) : String :=
  d.deleteFunction ++ "(" ++ container ++ ", " ++ d.quoteString key ++ ")"

/-- The text of the whole `container`. -/
def dump (container : String) : String := d.dumpFunction ++ "(" ++ container ++ ")"

/-- One entry of a new column. -/
def createPair (key value cast : String) : String :=
  d.quoteString key ++ ", " ++ value ++ " " ++ d.castKeyword ++ " " ++ cast

/-- A new column with the given entries: key, value and type of each. -/
def create (pairs : List (String × String × String)) : String :=
  d.createFunction ++ "("
    ++ ", ".intercalate (pairs.map fun (key, value, cast) => d.createPair key value cast) ++ ")"

end Dialect

end PackedColumn
