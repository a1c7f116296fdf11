import PackedColumn.Record

/-!
# Edits

The changes of a record as values: what a caller does to a record is a list of them. Each answers
something, and one that fails or finds nothing leaves the record as it is.
-/

namespace PackedColumn

/-- A change of a record that a caller asks for. -/
inductive Edit where
  | set (name : String) (value : Json)
  | unset (name : String)

/-- The dotted name of the attribute that is changed. -/
def Edit.name : Edit → String
  | .set name _ => name
  | .unset name => name

/-- What an edit answers. -/
inductive Edit.Answer where
  /-- The attribute is set. -/
  | done
  /-- The name spells no attribute. -/
  | failed (error : CompileError)
  /-- The value that was taken out, if there was one. -/
  | removed (value? : Option Json)

namespace Record

/-- The answer to an edit, and the record after it. -/
def apply (r : Record) : Edit → Edit.Answer × Record
  | .set name value =>
    match r.set name value with
    | .ok after => (.done, after)
    | .error e => (.failed e, r)
  | .unset name =>
    let (removed, after) := r.unset name
    (.removed removed, after)

/-- The answers to edits in their order, and the record after the last. -/
def applyAll (r : Record) : List Edit → List Edit.Answer × Record
  | [] => ([], r)
  | edit :: rest =>
    let (answer, next) := r.apply edit
    let (answers, last) := next.applyAll rest
    (answer :: answers, last)

end Record

end PackedColumn
