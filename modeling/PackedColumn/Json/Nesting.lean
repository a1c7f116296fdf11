import PackedColumn.Json.Token

/-!
# From tokens to structure

`Raw.ofTokens?` reads a list of tokens as one JSON value. The arrays and objects that are still open
wait in a list of frames, the innermost first, so that the reading is a single pass over the tokens
however deep the value is.

* `expectValue` stands where a value has to start.
* `afterValue` stands behind a complete value: the frames say what may follow it.
-/

namespace PackedColumn.Json.Raw

/-- An array or object that is still open. What it holds so far stands newest first. -/
inductive Frame where
  | array (items : List Raw)
  /-- The value of `key` is being read. -/
  | object (members : List (List Piece × Raw)) (key : List Piece)

mutual

/-- A value has to start here, inside `frames`. -/
def expectValue (frames : List Frame) : List Token → Option Raw
  | .openArray :: .closeArray :: rest => afterValue frames (.array []) rest
  | .openArray :: rest => expectValue (.array [] :: frames) rest
  | .openObject :: .closeObject :: rest => afterValue frames (.object []) rest
  | .openObject :: .string key :: .colon :: rest => expectValue (.object [] key :: frames) rest
  | .null :: rest => afterValue frames .null rest
  | .bool b :: rest => afterValue frames (.bool b) rest
  | .number text :: rest => afterValue frames (.number text) rest
  | .string pieces :: rest => afterValue frames (.string pieces) rest
  | _ => none

/-- The value `value` ends here, inside `frames`. -/
def afterValue (frames : List Frame) (value : Raw) : List Token → Option Raw
  | [] => match frames with
    | [] => some value
    | _ :: _ => none
  | .comma :: .string key :: .colon :: rest => match frames with
    | .object members last :: outer =>
      expectValue (.object ((last, value) :: members) key :: outer) rest
    | _ => none
  | .comma :: rest => match frames with
    | .array items :: outer => expectValue (.array (value :: items) :: outer) rest
    | _ => none
  | .closeArray :: rest => match frames with
    | .array items :: outer => afterValue outer (.array (value :: items).reverse) rest
    | _ => none
  | .closeObject :: rest => match frames with
    | .object members last :: outer =>
      afterValue outer (.object ((last, value) :: members).reverse) rest
    | _ => none
  | _ => none

end

/-- The value whose tokens these are. -/
def ofTokens? (tokens : List Token) : Option Raw := expectValue [] tokens

/-- The structure of a JSON text; `none` when the text breaks the grammar. -/
def parse? (text : String) : Option Raw := (tokens? text.toList).bind ofTokens?

end PackedColumn.Json.Raw
