import PackedColumn.Text

/-!
# SQL types

The scalar types that a caller may ask for, such as `decimal(6,2)` or `signed int`. A type keeps the
caller's spelling: the keyword as it was written, with blanks between its two words reduced to one
space, and the parenthesised parameters character by character.

`parse?` reads a text leniently in letter case and blanks and accepts nothing outside the grammar.
-/

namespace PackedColumn

/-- The first word of a type. -/
inductive TypeKeyword where
  | binary
  | char
  | time
  | datetime
  | date
  | decimal
  | double
  | int
  | integer
  | signed
  | unsigned
deriving DecidableEq, Repr

namespace TypeKeyword

/-- The keyword in capitals. -/
def name : TypeKeyword → String
  | binary => "BINARY"
  | char => "CHAR"
  | time => "TIME"
  | datetime => "DATETIME"
  | date => "DATE"
  | decimal => "DECIMAL"
  | double => "DOUBLE"
  | int => "INT"
  | integer => "INTEGER"
  | signed => "SIGNED"
  | unsigned => "UNSIGNED"

/-- Every keyword. -/
def all : List TypeKeyword :=
  [binary, char, time, datetime, date, decimal, double, int, integer, signed, unsigned]

/-- The keyword that a word spells, in any letter case. -/
def ofWord? (word : List Char) : Option TypeKeyword :=
  all.find? fun k => k.name.toList = word.map Char.toUpper

/-- Whether the keyword takes a list of `count` parameters; no list counts as none. -/
def accepts (k : TypeKeyword) (count : Nat) : Bool :=
  match k with
  | binary | char | time | datetime => count ≤ 1
  | decimal => count ≤ 2
  | double => count == 0 || count == 2
  | date | int | integer | signed | unsigned => count == 0

/-- Whether `INT` or `INTEGER` may follow as a second word. -/
def takesSecondWord : TypeKeyword → Bool
  | signed | unsigned => true
  | _ => false

end TypeKeyword

/-- How a type is written into SQL. -/
inductive TypeCase where
  /-- As the caller wrote it. -/
  | verbatim
  /-- With the keyword in capitals. -/
  | upper
deriving DecidableEq, Repr

/-- A SQL type in its caller's spelling. -/
structure SqlType where
  keyword : TypeKeyword
  /-- The keyword as it was written, its words one space apart. -/
  keywordText : String
  /-- The parenthesised parameters as they were written. -/
  params : Option String
deriving DecidableEq, Repr

namespace SqlType

open Unicode Text

/-! ## The grammar -/

/-- A letter of a keyword. -/
def isLetter (c : Char) : Bool := c.isAlpha

/-- The letters at the start of a text, and the rest. -/
def word (cs : List Char) : List Char × List Char := (cs.takeWhile isLetter, cs.dropWhile isLetter)

/-- Whether a word is one of the second words, in any letter case. -/
def isSecondWord (cs : List Char) : Bool :=
  TypeKeyword.ofWord? cs == some .int || TypeKeyword.ofWord? cs == some .integer

/-- The keyword at the start of a text: the keyword, its words as written, and the rest. -/
def keyword? (cs : List Char) : Option (TypeKeyword × List (List Char) × List Char) :=
  let first := word cs
  (TypeKeyword.ofWord? first.1).map fun k =>
    let second := word (trimStart first.2)
    if k.takesSecondWord && first.2.head?.any isBlank && isSecondWord second.1 then
      (k, [first.1, second.1], second.2)
    else (k, [first.1], first.2)

/-- What follows a run of digits, not empty, with blanks allowed around it. -/
def afterDigits? (cs : List Char) : Option (List Char) :=
  let start := trimStart cs
  if (start.takeWhile isDigit).isEmpty then none
  else some (trimStart (start.dropWhile isDigit))

/-- The number of parameters of a parenthesised list; `none` when the text is no such list. -/
def paramCount? : List Char → Option Nat
  | '(' :: cs =>
    match afterDigits? cs with
    | some [')'] => some 1
    | some (',' :: rest) => if afterDigits? rest = some [')'] then some 2 else none
    | _ => none
  | _ => none

/-- The type that a text spells, if it spells one. -/
def parse? (text : String) : Option SqlType :=
  (keyword? (trim text.toList)).bind fun (k, words, rest) =>
    let keywordText := " ".intercalate (words.map String.ofList)
    let list := trimStart rest
    if list.isEmpty then
      if k.accepts 0 then some ⟨k, keywordText, none⟩ else none
    else
      (paramCount? list).bind fun count =>
        if k.accepts count then some ⟨k, keywordText, some (String.ofList list)⟩ else none

/-! ## Spelling -/

/-- The type of a keyword without parameters, in capitals. -/
def plain (k : TypeKeyword) : SqlType := ⟨k, k.name, none⟩

/-- The parameters, or nothing. -/
def paramText (t : SqlType) : String := t.params.getD ""

/-- The type as it was written. -/
def verbatim (t : SqlType) : String := t.keywordText ++ t.paramText

/-- The type with its keyword in capitals. -/
def normalized (t : SqlType) : String := t.keywordText.map Char.toUpper ++ t.paramText

/-- The type in a given letter case. -/
def render (case : TypeCase) (t : SqlType) : String :=
  match case with
  | .verbatim => t.verbatim
  | .upper => t.normalized

end SqlType

end PackedColumn
