import PackedColumn.Path
import PackedColumn.Value

/-!
# Packed-column expressions

The SQL expressions that read and write a packed column, as trees: what they do is visible in their
shape, and `render` writes them in a dialect.

* `Expr.read` descends from a container to the leaf of a path.
* `Expr.write` rebuilds every level on the way: each level is read from the container above it, and
  stored back with its child replaced.
* `Expr.ofMembers` builds a whole column from a tree of attributes.
-/

namespace PackedColumn

/-- The type that an entry is read or stored as. -/
inductive Cast where
  /-- The type of a nested level. -/
  | intermediate
  /-- The type of a leaf for which none is named. -/
  | unnamed
  | named (type : SqlType)
deriving DecidableEq

/-- The type as the dialect writes it. -/
def Cast.render (d : Dialect) : Cast → String
  | intermediate => d.intermediateType
  | unnamed => d.defaultType
  | named type => type.render d.typeCase

/-- The type of a leaf: the one that was asked for, if any. -/
def Cast.ofType? : Option SqlType → Cast
  | none => unnamed
  | some type => named type

/-- An expression over packed columns. -/
inductive Expr where
  /-- The text of a column. -/
  | column (sql : String)
  | literal (s : Scalar)
  /-- The column that holds nothing. -/
  | null
  /-- The entry `key` of a container. -/
  | extract (container : Expr) (key : String) (cast : Cast)
  /-- A container with an entry set. -/
  | set (container : Expr) (key : String) (value : Expr) (cast : Cast)
  /-- A container without an entry. -/
  | delete (container : Expr) (key : String)
  /-- A new container. -/
  | create (pairs : List (String × Expr × Cast))

namespace Expr

/-! ## Text -/

mutual

/-- The expression in the dialect. -/
def render (d : Dialect) : Expr → String
  | column sql => sql
  | literal s => s.literal d
  | null => "NULL"
  | extract container key cast => d.extract (container.render d) key (cast.render d)
  | set container key value cast =>
    d.set (container.render d) key (value.render d) (cast.render d)
  | delete container key => d.delete (container.render d) key
  | create pairs => d.create (renderPairs d pairs)

/-- The key, the value and the type of each entry of a new container. -/
def renderPairs (d : Dialect) : List (String × Expr × Cast) → List (String × String × String)
  | [] => []
  | (key, value, cast) :: rest => (key, value.render d, cast.render d) :: renderPairs d rest

end

/-! ## Reading -/

/-- The container at the end of the walk along `keys`. -/
def descend (container : Expr) (keys : List String) : Expr :=
  keys.foldl (fun c key => c.extract key .intermediate) container

/-- The attribute at `path`. -/
def read (container : Expr) (path : Path) (type? : Option SqlType) : Expr :=
  (container.descend path.parents).extract path.leaf (.ofType? type?)

/-! ## Writing -/

/-- The container with `change` done to the container at the end of the walk along `keys`. -/
def rebuild (change : Expr → Expr) : List String → Expr → Expr
  | [], container => change container
  | key :: rest, container =>
    container.set key (rebuild change rest (container.extract key .intermediate)) .intermediate

/-- The container with an entry written: set to a scalar, as the named or else its default type, or
taken away. -/
def writeEntry (key : String) (value : Value) (type? : Option SqlType) (container : Expr) : Expr :=
  match value with
  | .scalar s => container.set key (.literal s) (.named (type?.getD s.defaultType))
  | .absent | .null => container.delete key

/-- The container with the attribute at `path` written. -/
def write (container : Expr) (path : Path) (value : Value) (type? : Option SqlType) : Expr :=
  rebuild (writeEntry path.leaf value type?) path.parents container

/-! ## Building -/

/-- The name of the member `key` of the object that `outer` names. The whole column has the empty
name. -/
def memberName (outer key : String) : String :=
  if outer.isEmpty then key else outer ++ "." ++ key

/-- The container of the given entries; `none` when there is none. -/
def create? (pairs : List (String × Expr × Cast)) : Option Expr :=
  if pairs.isEmpty then none else some (create pairs)

mutual

/-- The value and type that stand for a member; `none` when it is null or an object without any
scalar in it. -/
def ofMember (name : String) : Json → Except CompileError (Option (Expr × Cast))
  | .object members =>
    (pairsOf name members).map fun pairs => (create? pairs).map fun e => (e, .intermediate)
  | value =>
    (Value.ofJson name value).map fun v =>
      v.scalar?.map fun s => (literal s, .named s.defaultType)

/-- The entries for the members of the object that `outer` names, in their order. -/
def pairsOf (outer : String) : Entries Json → Except CompileError (List (String × Expr × Cast))
  | [] => .ok []
  | (key, value) :: rest =>
    (ofMember (memberName outer key) value).bind fun first =>
      (pairsOf outer rest).map fun others =>
        match first with
        | some (e, cast) => (key, e, cast) :: others
        | none => others

end

/-- The column that holds the given attributes. -/
def ofMembers (members : Entries Json) : Except CompileError Expr :=
  (pairsOf "" members).map fun pairs => (create? pairs).getD null

end Expr

end PackedColumn
