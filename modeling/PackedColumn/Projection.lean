import PackedColumn.Alias
import PackedColumn.Entity
import PackedColumn.Fragment

/-!
# Projections

The items of a SELECT. Their markers are read from the table-qualified column, each item gets its
alias, and a projection of everything has the dump of the packed column added at its end. Without
items everything is projected.
-/

namespace PackedColumn

/-- An item of a projection. -/
inductive SelectItem where
  /-- An expression that may end in its alias. -/
  | expression (text : String)
  /-- An expression and the alias that the caller names. -/
  | aliased (expression name : String)
deriving DecidableEq

namespace SelectItem

/-- Whether the item stands for every column. -/
def isWildcard : SelectItem → Bool
  | expression text => Text.trimmed text == "*"
  | aliased _ _ => false

/-- The SQL of the item, its markers read from `column`. -/
def compile (d : Dialect) (column : String) : SelectItem → Traced String
  | expression text => Alias.assign d <$> Fragment.compile d column text
  | aliased text name =>
    (fun sql => Alias.assignExplicit d sql name) <$> Fragment.compile d column text

end SelectItem

namespace Projection

/-- The whole packed column as text, under the dialect's name for it. -/
def dumpItem (d : Dialect) (c : Column) : String :=
  Alias.named d (d.dump (c.qualified d)) d.dumpAlias

/-- The items that are projected: everything when none is given. -/
def effective (items : List SelectItem) : List SelectItem :=
  if items.isEmpty then [.expression "*"] else items

/-- The SQL of each item. -/
def compile (d : Dialect) (c : Column) (items : List SelectItem) : Traced (List String) := do
  let items := effective items
  let compiled ← Traced.each items (SelectItem.compile d (c.qualified d))
  return compiled ++ (if items.any SelectItem.isWildcard then [dumpItem d c] else [])

end Projection

end PackedColumn
