import PackedColumn.Projection

/-!
# Queries

One SELECT on an entity, put together clause by clause. Markers in the projection read the
table-qualified column, markers in all other clauses its bare name.
-/

namespace PackedColumn

/-- A SELECT in the making. -/
structure Query where
  entity : Entity
  dialect : Dialect
  items : List SelectItem := []
  conditions : List String := []
  groups : List String := []
  having : Option String := none
  orders : List String := []

namespace Query

/-! ## Building -/

/-- The query on an entity with no clause added. -/
def on (entity : Entity) (dialect : Dialect) : Query := { entity, dialect }

/-- Projects `items` and nothing else. -/
def select (q : Query) (items : List SelectItem) : Query := { q with items }

/-- Projects one item more, under an alias. -/
def selectAliased (q : Query) (expression name : String) : Query :=
  { q with items := q.items ++ [.aliased expression name] }

/-- Asks for `condition` and nothing else. -/
def filter (q : Query) (condition : String) : Query := { q with conditions := [condition] }

/-- Asks for one condition more. -/
def andFilter (q : Query) (condition : String) : Query :=
  { q with conditions := q.conditions ++ [condition] }

/-- Groups by one expression more. -/
def groupBy (q : Query) (expression : String) : Query :=
  { q with groups := q.groups ++ [expression] }

/-- Asks for `condition` of the groups, and nothing else of them. -/
def filterGroups (q : Query) (condition : String) : Query := { q with having := some condition }

/-- Orders by one expression more. -/
def orderBy (q : Query) (expression : String) : Query :=
  { q with orders := q.orders ++ [expression] }

/-- A change of the query that a caller asks for. -/
inductive Step where
  | select (items : List SelectItem)
  | selectAliased (expression name : String)
  | filter (condition : String)
  | andFilter (condition : String)
  | groupBy (expression : String)
  | filterGroups (condition : String)
  | orderBy (expression : String)
deriving DecidableEq

/-- The query after a change. -/
def apply (q : Query) : Step → Query
  | .select items => q.select items
  | .selectAliased expression name => q.selectAliased expression name
  | .filter condition => q.filter condition
  | .andFilter condition => q.andFilter condition
  | .groupBy expression => q.groupBy expression
  | .filterGroups condition => q.filterGroups condition
  | .orderBy expression => q.orderBy expression

/-- The query after changes in their order. -/
def applyAll (q : Query) (steps : List Step) : Query := steps.foldl apply q

/-! ## The statement -/

/-- A clause of parts, or nothing when there are none. -/
def clause (keyword separator : String) (parts : List String) : String :=
  if parts.isEmpty then "" else " " ++ keyword ++ " " ++ separator.intercalate parts

/-- The conditions as one: a single one as it is, several in parentheses. -/
def bracketed (conditions : List String) : List String :=
  match conditions with
  | [] => []
  | [condition] => [condition]
  | several => several.map fun condition => "(" ++ condition ++ ")"

/-- The statement. Without a dynamic column there is none, and nothing is compiled. -/
def build (q : Query) : Request String := do
  let column ← Request.ofExcept q.entity.column
  let fragments := fun texts : List String =>
    Traced.each texts (Fragment.compile q.dialect column.name)
  let items ← Projection.compile q.dialect column q.items
  let conditions ← fragments q.conditions
  let groups ← fragments q.groups
  let having ← fragments q.having.toList
  let orders ← fragments q.orders
  let sql := "SELECT " ++ ", ".intercalate items
    ++ " FROM " ++ q.dialect.quoteTableName q.entity.table
    ++ clause "WHERE" " AND " (bracketed conditions)
    ++ clause "GROUP BY" ", " groups
    ++ clause "HAVING" ", " having
    ++ clause "ORDER BY" ", " orders
  Traced.emit (.queryBuilt q.entity.table sql)
  return sql

end Query

end PackedColumn
