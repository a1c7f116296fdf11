import PackedColumn.Json.Token
import PackedColumn.Proofs.Blank
import PackedColumn.Proofs.Packed
import PackedColumn.Proofs.Unambiguous

/-!
# Reading SQL text

What a text of SQL yields on a packed column, by its syntax alone. Of the dialect the reader knows
the names of the functions, the word before a type, the quote and the type of the levels; of the
column it knows the text and the content.

* `Constructor.read?` reads the constructor of a column. An entry is a key as a string literal, a
  value and a type, and the value is a literal or a constructor again.
* `Sql.container?` reads the container that a call starts with: the column, or an entry of another
  container.
* `Sql.eval?` reads a whole text and evaluates it on the way. The reading function yields an entry
  of its container, the other two the container with an entry set or without it, and a constructor
  the map of its entries.

A key or a text may hold anything, also what looks like syntax, because a literal ends where its
quote does. That the calls can be told apart from each other and from literals is up to the dialect
(`Dialect.Legible`).
-/

namespace PackedColumn

/-! ## Dialects that can be read -/

namespace Dialect

variable (d : Dialect)

/-- The functions that an expression may call. -/
def functions : List String := [d.getFunction, d.addFunction, d.deleteFunction, d.createFunction]

/-- The calls of the dialect can be told apart from each other and from literals. Where two
functions have one name, or a name starts like a literal, a text has no meaning of its own. -/
structure Legible (d : Dialect) : Prop where
  /-- A quote behind a backslash does not end a literal. -/
  quote_ne_backslash : d.stringQuote ≠ '\\'
  /-- No numeral starts like a string literal. -/
  quote_not_inNumeral : ¬ Scalar.InNumeral d.stringQuote
  /-- No call starts like a literal. -/
  starts : ∀ f ∈ d.functions, ∃ c rest, f.toList = c :: rest ∧ c ≠ d.stringQuote ∧
    ¬ Scalar.InNumeral c
  /-- The name of a function ends at the parenthesis of its call. -/
  not_mem_paren : ∀ f ∈ d.functions, '(' ∉ f.toList
  nodup : d.functions.Nodup
  /-- The first comma behind nested reads is behind all of their openings. -/
  not_mem_comma : ',' ∉ d.getFunction.toList

theorem legible_default : Dialect.default.Legible where
  quote_ne_backslash := by decide
  quote_not_inNumeral := by decide
  starts := by
    have hcall : ∀ f ∈ Dialect.default.functions, f.toList.head? = some 'C' := by decide
    intro f hf
    obtain ⟨rest, hrest⟩ := List.head?_eq_some_iff.mp (hcall f hf)
    exact ⟨'C', rest, hrest, by decide, by decide⟩
  not_mem_paren := by decide
  nodup := by decide
  not_mem_comma := by decide

/-- The constructor is none of the other functions, and no two of these are the same. -/
theorem Legible.names_ne {d : Dialect} (hd : d.Legible) :
    (d.getFunction ≠ d.createFunction ∧ d.addFunction ≠ d.createFunction ∧
      d.deleteFunction ≠ d.createFunction) ∧
    d.addFunction ≠ d.getFunction ∧ d.addFunction ≠ d.deleteFunction ∧
      d.deleteFunction ≠ d.getFunction := by
  have hnodup := hd.nodup
  simp only [functions, List.nodup_cons, List.mem_cons, List.not_mem_nil, or_false,
    not_or] at hnodup
  obtain ⟨⟨hga, hgd, hgc⟩, ⟨had, hac⟩, hdc, -⟩ := hnodup
  exact ⟨⟨hgc, hac, hdc⟩, Ne.symm hga, had, Ne.symm hgd⟩

end Dialect

/-! ## Literals -/

namespace Sql

open Json.Token (after? after?_eq_some_iff)

variable (d : Dialect)

/-- The word before a type, with the blanks around it. -/
def castWord : List Char := ' ' :: (d.castKeyword.toList ++ [' '])

/-- The literal at the start of a text, a string literal or a numeral, and what is behind it. -/
def literal? (cs : List Char) : Option (String × List Char) :=
  match unquote? d.stringQuote cs with
  | some (_, rest) => some (.ofList (cs.take (cs.length - rest.length)), rest)
  | none =>
    let numeral := cs.takeWhile fun c => Scalar.InNumeral c
    if numeral.isEmpty then none
    else some (.ofList numeral, cs.dropWhile fun c => Scalar.InNumeral c)

/-! ### Their ends -/

variable {d}

theorem literal?_quoteString (hd : d.Legible) (text : String) (rest : List Char) :
    literal? d ((d.quoteString text).toList ++ rest) = some (d.quoteString text, rest) := by
  simp only [literal?, Dialect.unquote?_quoteString hd.quote_ne_backslash]
  rw [List.length_append, Nat.add_sub_cancel, List.take_left, String.ofList_toList]

/-- What starts with another character than the quote is no string literal. -/
theorem unquote?_of_ne {quote c : Char} (h : c ≠ quote) (cs : List Char) :
    unquote? quote (c :: cs) = none := if_neg h

theorem literal?_numeral (hd : d.Legible) {cs : List Char}
    (hnumeral : ∀ c ∈ cs, Scalar.InNumeral c) (hne : cs ≠ []) (rest : List Char) :
    literal? d (cs ++ ' ' :: rest) = some (.ofList cs, ' ' :: rest) := by
  have hnone : unquote? d.stringQuote (cs ++ ' ' :: rest) = none := by
    obtain ⟨c, tail, rfl⟩ := List.exists_cons_of_ne_nil hne
    refine unquote?_of_ne ?_ _
    rintro rfl
    exact hd.quote_not_inNumeral (hnumeral _ List.mem_cons_self)
  have hblank : ∀ c ∈ (' ' :: rest).head?, decide (Scalar.InNumeral c) = false := by
    rintro _ ⟨⟩
    decide
  obtain ⟨htake, hdrop⟩ := Text.cut_append (fun c hc => decide_eq_true (hnumeral c hc)) hblank
  simp only [literal?, hnone, htake, hdrop]
  rw [if_neg (by rwa [List.isEmpty_iff])]

/-- A literal with a blank behind it is read back. -/
theorem literal?_literal (hd : d.Legible) (s : Scalar) (rest : List Char) :
    literal? d ((s.literal d).toList ++ ' ' :: rest) = some (s.literal d, ' ' :: rest) := by
  rcases Scalar.literal_cases d s with ⟨text, hs⟩ | hnumeral
  · rw [hs, literal?_quoteString hd]
  · rw [literal?_numeral hd hnumeral (Scalar.toList_literal_ne_nil d s), String.ofList_toList]

/-- A call does not start like a literal. -/
theorem literal?_call (hd : d.Legible) {f : String} (hf : f ∈ d.functions) (rest : List Char) :
    literal? d (f.toList ++ rest) = none := by
  obtain ⟨c, tail, htext, hquote, hnumeral⟩ := hd.starts f hf
  simp [literal?, htext, unquote?_of_ne hquote, hnumeral]

/-- A literal does not start like a call. -/
theorem after?_literal (hd : d.Legible) {f : String} (hf : f ∈ d.functions) (s : Scalar)
    (rest : List Char) :
    after? (f.toList ++ ['(']) ((s.literal d).toList ++ ' ' :: rest) = none := by
  rw [Option.eq_none_iff_forall_ne_some]
  intro behind h
  have hcall := literal?_call hd hf ('(' :: behind)
  rw [← List.singleton_append, ← List.append_assoc, ← after?_eq_some_iff.mp h,
    literal?_literal hd] at hcall
  cases hcall

end Sql

/-! ## Constructors -/

/-- What an entry of a column holds, as its constructor spells it. -/
inductive Content where
  | scalar (literal type : String)
  /-- A constructor within the constructor. -/
  | nested (entries : List (String × Content)) (type : String)

namespace Content

mutual

/-- The tree that the content is. -/
def packed : Content → Packed
  | scalar literal type => .scalar (some literal) (some type)
  | nested entries _ => .map (packedEntries entries)

/-- The entries of the map that a constructor builds. -/
def packedEntries : List (String × Content) → String → Option Packed
  | [], _ => none
  | (k, content) :: rest, key => if k = key then some content.packed else packedEntries rest key

end

end Content

namespace Constructor

open Json.Token (after?)
open Sql (castWord literal?)

variable (d : Dialect)

/-- A character within a type: none of the two that end an entry. -/
def inType (c : Char) : Bool := c != ',' && c != ')'

/-- The type of an entry, and what is behind it. -/
def type? (cs : List Char) : Option (String × List Char) :=
  (after? (castWord d) cs).map fun rest =>
    (.ofList (rest.takeWhile inType), rest.dropWhile inType)

/-- The entries from one on, where `cs` is behind it. A parenthesis ends them, and a comma goes on
to the others. -/
def entriesFrom? (others? : List Char → Option (List (String × Content) × List Char))
    (entry : String × Content) (cs : List Char) : Option (List (String × Content) × List Char) :=
  match cs with
  | ')' :: rest => some ([entry], rest)
  | ',' :: ' ' :: rest => (others? rest).map fun (others, rest) => (entry :: others, rest)
  | _ => none

mutual

/-- The content of the entry whose value is at the start of a text, and what is behind the entry. A
constructor within the constructor is stored as the type of the levels. -/
def content? : (fuel : Nat) → List Char → Option (Content × List Char)
  | 0, _ => none
  | fuel + 1, cs =>
    match after? (d.createFunction.toList ++ ['(']) cs with
    | some inner =>
      (entries? fuel inner).bind fun (entries, rest) =>
        (after? (castWord d ++ d.intermediateType.toList) rest).map fun rest =>
          (.nested entries d.intermediateType, rest)
    | none =>
      (literal? d cs).bind fun (literal, rest) =>
        (type? d rest).map fun (type, rest) => (.scalar literal type, rest)

/-- The entries up to the end of a constructor, at least one, and what is behind it. -/
def entries? : (fuel : Nat) → List Char → Option (List (String × Content) × List Char)
  | 0, _ => none
  | fuel + 1, cs =>
    (unquote? d.stringQuote cs).bind fun (key, rest) =>
      (after? [',', ' '] rest).bind fun rest =>
        (content? fuel rest).bind fun (value, rest) =>
          entriesFrom? (entries? fuel) (.ofList key, value) rest

end

/-- The entries of the column that a text builds; `NULL` builds a column without any. -/
def read? (sql : String) : Option (List (String × Content)) :=
  if sql = "NULL" then some []
  else
    (after? (d.createFunction.toList ++ ['(']) sql.toList).bind fun inner =>
      match entries? d inner.length inner with
      | some (entries, []) => some entries
      | _ => none

end Constructor

/-! ## Calls -/

namespace Sql

open Json.Token (after? after?_append after?_eq_some_iff)
open Packed

variable (d : Dialect) (column : String) (t : Option Packed)

/-- What stands before `word` at the end of a text. -/
def before? (word cs : List Char) : Option (List Char) :=
  (after? word.reverse cs.reverse).map List.reverse

/-- The name of the function that a text calls and the text of its arguments. -/
def call? (cs : List Char) : Option (List Char × List Char) :=
  (after? ['('] (cs.dropWhile (· != '('))).bind fun rest =>
    (before? [')'] rest).map fun arguments => (cs.takeWhile (· != '('), arguments)

/-- What the container at the start of the arguments yields on a column that holds `t`, and what is
behind it. The container is the column itself or an entry of another container. -/
def container? : (fuel : Nat) → List Char → Option (Option Packed × List Char)
  | 0, _ => none
  | fuel + 1, cs =>
    match after? (column.toList ++ [',', ' ']) cs with
    | some rest => some (t, rest)
    | none =>
      (after? (d.getFunction.toList ++ ['(']) cs).bind fun rest =>
        (container? fuel rest).bind fun (container, rest) =>
          (unquote? d.stringQuote rest).bind fun (key, rest) =>
            (after? (castWord d ++ (d.intermediateType.toList ++ [')', ',', ' '])) rest).map
              fun rest => (entry (.ofList key) container, rest)

/-- The container and the key that the arguments of a call start with, and what is behind them. -/
def place? (arguments : List Char) : Option (Option Packed × String × List Char) :=
  (container? d column t arguments.length arguments).bind fun (container, rest) =>
    (unquote? d.stringQuote rest).map fun (key, rest) => (container, .ofList key, rest)

/-- What a function yields of an entry of a container, where `rest` is behind the key: the entry,
the container without it, or the container with the entry set. What is set is a literal with its
type, or a level that a call yields. -/
def perform? (level? : List Char → Option (Option Packed)) (function : List Char)
    (container : Option Packed) (key : String) (rest : List Char) : Option (Option Packed) :=
  if function = d.getFunction.toList then
    (after? (castWord d) rest).map fun _ => entry key container
  else if function = d.deleteFunction.toList then
    if rest.isEmpty then some (put key none container) else none
  else if function = d.addFunction.toList then
    (after? [',', ' '] rest).bind fun value =>
      match literal? d value with
      | some (literal, rest) =>
        (after? (castWord d) rest).map fun type =>
          put key (some (.scalar (some literal) (some (.ofList type)))) container
      | none =>
        (before? (castWord d ++ d.intermediateType.toList) value).bind fun call =>
          (level? call).map fun level => put key level container
  else none

/-- What the expression of a text yields on a column that holds `t`. -/
def evalText? : (fuel : Nat) → List Char → Option (Option Packed)
  | 0, _ => none
  | fuel + 1, cs =>
    if cs = "NULL".toList then some none
    else
      (call? cs).bind fun (function, arguments) =>
        if function = d.createFunction.toList then
          (Constructor.read? d (.ofList cs)).map fun entries =>
            some (.map (Content.packedEntries entries))
        else
          (place? d column t arguments).bind fun (container, key, rest) =>
            perform? d (evalText? fuel) function container key rest

/-- What a text yields on a column that holds `t`. -/
def eval? (sql : String) : Option (Option Packed) :=
  evalText? d column t sql.toList.length sql.toList

/-! ### Their ends -/

variable {d column t}

theorem before?_append (word cs : List Char) : before? word (cs ++ word) = some cs := by
  rw [before?, List.reverse_append, after?_append, Option.map_some, List.reverse_reverse]

/-- A call is its name and its arguments, whatever stands in these. -/
theorem call?_append {f : List Char} (hf : '(' ∉ f) (arguments : List Char) :
    call? (f ++ '(' :: (arguments ++ [')'])) = some (f, arguments) := by
  have hname : ∀ c ∈ f, (c != '(') = true := fun c hc => by
    rw [bne_iff_ne]
    rintro rfl
    exact hf hc
  have hparen : ∀ c ∈ ('(' :: (arguments ++ [')'])).head?, (c != '(') = false := by
    rintro _ ⟨⟩
    rfl
  obtain ⟨htake, hdrop⟩ := Text.cut_append hname hparen
  have hopen : after? ['('] ('(' :: (arguments ++ [')'])) = some (arguments ++ [')']) := rfl
  rw [call?, htake, hdrop, hopen, Option.bind_some, before?_append]
  rfl

end Sql

end PackedColumn
