import PackedColumn.Entity
import PackedColumn.Json.Read

/-!
# Configuration

A dialect and the entities that are compiled against it, as a JSON document. Every member of the
document but an entity's table may be left out and then takes its default. Members of other names
are skipped, whatever grammatical JSON they hold; a known member that stands twice is an error. An
object may also be written as the array of its members' values in their order, with members missing
at the end.

`Config.toJson` writes a configuration with all its members.
-/

namespace PackedColumn

/-- A dialect and the entities that use it. -/
structure Config where
  dialect : Dialect
  entities : List Entity
deriving DecidableEq

/-- Why there is no configuration. -/
inductive ConfigError where
  /-- The file is missing or is not text. -/
  | unreadable
  /-- The text is no configuration. -/
  | malformed
deriving DecidableEq, Repr

/-! ## Reading the document -/

namespace Json.Raw

/-- The string that a structure spells. -/
def text? : Raw → Option String
  | .string pieces => Piece.text? pieces
  | _ => none

/-- The string that a structure spells, or no string where it is null. -/
def optionalText? : Raw → Option (Option String)
  | .null => some none
  | raw => raw.text?.map some

/-- The only character of a string. -/
def char? (raw : Raw) : Option Char :=
  raw.text?.bind fun s =>
    match s.toList with
    | [c] => some c
    | _ => none

/-- The items of an array, each read by `item?`. -/
def listOf? {α : Type} (item? : Raw → Option α) : Raw → Option (List α)
  | .array items => items.mapM item?
  | _ => none

/-- The members with a known name, each at most once, out of an object or out of an array in the
order of the names. -/
def fields? (known : List String) : Raw → Option (Entries Raw)
  | .object members => do
    let named ← members.mapM fun m => (Piece.text? m.1).map fun name => (name, m.2)
    let fields := named.filter fun m => known.contains m.1
    if (Entries.names fields).Nodup then some fields else none
  | .array items => if items.length ≤ known.length then some (known.zip items) else none
  | _ => none

/-- The field `name`, read by `read?`, or its default where it is missing. -/
def field? {α : Type} (fields : Entries Raw) (name : String) (read? : Raw → Option α)
    (default : Option α) : Option α :=
  match Entries.get? name fields with
  | some raw => read? raw
  | none => default

end Json.Raw

open Json.Raw (field? fields? text? optionalText? char? listOf?)

namespace TypeCase

/-- The name of a letter case in a document. -/
def name : TypeCase → String
  | verbatim => "verbatim"
  | upper => "upper"

/-- The letter case of a name. -/
def ofName? (s : String) : Option TypeCase := [verbatim, upper].find? fun c => c.name = s

/-- A letter case is its name, or an object with its name as the only member and no value. -/
def ofRaw? : Json.Raw → Option TypeCase
  | .object [(key, .null)] => (Json.Piece.text? key).bind ofName?
  | raw => raw.text?.bind ofName?

end TypeCase

namespace Dialect

/-- The names of the members, in their order. -/
def fieldNames : List String :=
  ["get_function", "add_function", "delete_function", "create_function", "dump_function",
   "cast_keyword", "intermediate_type", "default_type", "dump_alias", "string_quote",
   "identifier_quote", "type_case"]

/-- The dialect of a document. -/
def ofRaw? (raw : Json.Raw) : Option Dialect := do
  let fields ← fields? fieldNames raw
  let text := fun name (default : String) => field? fields name text? (some default)
  let char := fun name (default : Char) => field? fields name char? (some default)
  return {
    getFunction := ← text "get_function" default.getFunction
    addFunction := ← text "add_function" default.addFunction
    deleteFunction := ← text "delete_function" default.deleteFunction
    createFunction := ← text "create_function" default.createFunction
    dumpFunction := ← text "dump_function" default.dumpFunction
    castKeyword := ← text "cast_keyword" default.castKeyword
    intermediateType := ← text "intermediate_type" default.intermediateType
    defaultType := ← text "default_type" default.defaultType
    dumpAlias := ← text "dump_alias" default.dumpAlias
    stringQuote := ← char "string_quote" default.stringQuote
    identifierQuote := ← char "identifier_quote" default.identifierQuote
    typeCase := ← field? fields "type_case" TypeCase.ofRaw? (some default.typeCase) }

end Dialect

namespace Entity

/-- The names of the members, in their order. -/
def fieldNames : List String := ["table_name", "dynamic_column", "columns"]

/-- The entity of a document. -/
def ofRaw? (raw : Json.Raw) : Option Entity := do
  let fields ← fields? fieldNames raw
  return {
    table := ← field? fields "table_name" text? none
    dynamicColumn := ← field? fields "dynamic_column" optionalText? (some none)
    columns := ← field? fields "columns" (listOf? text?) (some []) }

/-- The entity of a JSON text. -/
def parse? (text : String) : Option Entity := (Json.Raw.parse? text).bind ofRaw?

end Entity

namespace Config

/-- The default dialect and no entity. -/
def default : Config := ⟨.default, []⟩

instance : Inhabited Config := ⟨default⟩

/-- The names of the members, in their order. -/
def fieldNames : List String := ["dialect", "entities"]

/-- The configuration of a document. -/
def ofRaw? (raw : Json.Raw) : Option Config := do
  let fields ← fields? fieldNames raw
  return {
    dialect := ← field? fields "dialect" Dialect.ofRaw? (some .default)
    entities := ← field? fields "entities" (listOf? Entity.ofRaw?) (some []) }

/-- The configuration of a JSON text. -/
def parse (text : String) : Except ConfigError Config :=
  match (Json.Raw.parse? text).bind ofRaw? with
  | some config => .ok config
  | none => .error .malformed

/-- The configuration in a file of the given bytes; `none` stands for a missing file. -/
def ofFile (bytes? : Option ByteArray) : Except ConfigError Config :=
  match bytes?.bind String.fromUTF8? with
  | some text => parse text
  | none => .error .unreadable

/-! ## Use -/

/-- The first entity on a table. -/
def entity? (c : Config) (table : String) : Option Entity :=
  c.entities.find? fun e => e.table = table

/-- The configuration with one entity more. -/
def withEntity (c : Config) (e : Entity) : Config := { c with entities := c.entities ++ [e] }

end Config

/-! ## Writing the document -/

/-- The document of a dialect. -/
def Dialect.toJson (d : Dialect) : Json :=
  .object
    [("get_function", .string d.getFunction), ("add_function", .string d.addFunction),
     ("delete_function", .string d.deleteFunction), ("create_function", .string d.createFunction),
     ("dump_function", .string d.dumpFunction), ("cast_keyword", .string d.castKeyword),
     ("intermediate_type", .string d.intermediateType), ("default_type", .string d.defaultType),
     ("dump_alias", .string d.dumpAlias), ("string_quote", .string (.singleton d.stringQuote)),
     ("identifier_quote", .string (.singleton d.identifierQuote)),
     ("type_case", .string d.typeCase.name)]

/-- The document of an entity. -/
def Entity.toJson (e : Entity) : Json :=
  .object
    [("table_name", .string e.table),
     ("dynamic_column", (e.dynamicColumn.map Json.string).getD .null),
     ("columns", .array (e.columns.map .string))]

/-- The document of a configuration. -/
def Config.toJson (c : Config) : Json :=
  .object [("dialect", c.dialect.toJson), ("entities", .array (c.entities.map Entity.toJson))]

end PackedColumn
