import PackedColumn.Json.Printer
import PackedColumn.Message

/-!
# Errors

What an explicit request can fail with. Malformed markers and unknown types inside free SQL text are
no errors; they are left alone or replaced by a default.
-/

namespace PackedColumn

/-- Why a JSON value has no scalar form. -/
inductive UnsupportedReason where
  | array
  | object
deriving DecidableEq, Repr

/-- Why a dump cannot be decoded. -/
inductive DumpProblem where
  /-- The text is no JSON. -/
  | malformed
  /-- The text is JSON, but neither an object nor null. -/
  | notAnObject (found : Json)

/-- A failed request. -/
inductive CompileError where
  /-- The name has no segment, or an empty one. -/
  | invalidPath (name : String)
  /-- The entity has no dynamic column for the attribute. -/
  | unknownAttribute (entity name : String)
  /-- The attribute's value is not a scalar. -/
  | unsupportedValue (path : String) (reason : UnsupportedReason)
  /-- The text of a whole column cannot be decoded. -/
  | invalidDump (problem : DumpProblem)

/-- The reason in words. -/
def UnsupportedReason.message : UnsupportedReason → String
  | .array => "arrays are not supported"
  | .object => "nested objects are not scalar values"

/-- The problem in words. -/
def DumpProblem.message : DumpProblem → String
  | .malformed => "malformed JSON"
  | .notAnObject found => "expected an object, got " ++ found.compact

/-- The error in words. -/
def CompileError.message : CompileError → String
  | .invalidPath name =>
    "invalid attribute path " ++ Message.quoted name
      ++ ": a dynamic attribute must name at least one non-empty segment"
  | .unknownAttribute entity name =>
    "unknown dynamic attribute " ++ Message.quoted name ++ " on " ++ entity
      ++ ": no dynamic column is available"
  | .unsupportedValue path reason =>
    "unsupported value for dynamic attribute " ++ Message.quoted path ++ ": " ++ reason.message
  | .invalidDump problem => "invalid dynamic column dump: " ++ problem.message

end PackedColumn
