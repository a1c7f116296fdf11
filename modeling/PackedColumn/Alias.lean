import PackedColumn.Dialect

/-!
# Aliases of projected items

An item of a projection that ends in a bare word takes that word as its alias, whatever stands
before it, with or without the keyword between them. An expression that ends in a parenthesis has no
such word and stays bare.
-/

namespace PackedColumn.Alias

open Unicode Text

/-- A character of an alias: a character of a word, a hyphen or a dot. -/
def isAliasChar (c : Char) : Bool := isWord c || c == '-' || c == '.'

/-- The letter `A` in either case. -/
def isA (c : Char) : Bool := c == 'a' || c == 'A'

/-- The letter `S` in either case, or the long `ſ` that folds to it. -/
def isS (c : Char) : Bool := c == 's' || c == 'S' || c == 'ſ'

/-- The text without a keyword `AS` at its end and the blanks before it. The keyword needs a blank
before it. The text has no blanks at its end. -/
def dropKeyword (cs : List Char) : List Char :=
  match cs.reverse with
  | s :: a :: blank :: rest =>
    if isS s && isA a && isBlank blank then trimEnd (blank :: rest).reverse else cs
  | _ => cs

/-- The expression and the alias of an item without blanks at its ends; `none` when the item does
not end in a word that blanks set off. -/
def split? (item : List Char) : Option (List Char × List Char) :=
  let word := (item.reverse.takeWhile isAliasChar).reverse
  let before := (item.reverse.dropWhile isAliasChar).reverse
  if !word.isEmpty && before.getLast?.any isBlank then
    some (dropKeyword (trimEnd before), word)
  else none

/-- An expression under an alias. -/
def named (d : Dialect) (expression name : String) : String :=
  expression ++ " AS " ++ d.quoteColumnName name

/-- The item with its names quoted, under its alias if it has one. -/
def assign (d : Dialect) (item : String) : String :=
  let item := trim item.toList
  match split? item with
  | some (expression, word) =>
    named d (d.quoteColumnName (.ofList expression)) (.ofList word)
  | none => d.quoteColumnName (.ofList item)

/-- The expression under an alias that the caller names. A call stays as it is. -/
def assignExplicit (d : Dialect) (expression name : String) : String :=
  named d (if Dialect.isCall expression then expression else d.quoteColumnName expression) name

end PackedColumn.Alias
