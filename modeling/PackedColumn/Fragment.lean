import PackedColumn.Access
import PackedColumn.Marker

/-!
# SQL fragments

A fragment is free SQL text with markers in it. Compiling it replaces every marker by the expression
that reads its attribute and keeps all other text byte for byte.

Replacements are done from the last marker to the first, so the offsets of those still to come stay
valid.
-/

namespace PackedColumn.Fragment

/-- The text with the bytes from `start` to `stop` replaced. -/
def replaceBytes (start stop : Nat) (replacement text : List Char) : List Char :=
  Text.takeBytes start text ++ replacement ++ Text.dropBytes stop text

/-- The text with each marker replaced. The markers stand in the order of the text and do not
overlap. -/
def replaceMarkers (text : String) (replacements : List (Marker × String)) : String :=
  .ofList (replacements.foldr
    (fun r acc => replaceBytes r.1.start r.1.stop r.2.toList acc) text.toList)

/-- What a candidate is worth reporting for. -/
def candidateEvents : Candidate → List Event
  | .marker _ => []
  | .malformed start text => [.malformedMarker start text]

/-- The markers of a text; a candidate that is none is reported. -/
def scan (text : String) : Traced (List Marker) :=
  ⟨markersOf text, (candidatesOf text).flatMap candidateEvents⟩

/-- Whether a text holds a marker. -/
def containsMarker (text : String) : Traced Bool := (fun ms => !ms.isEmpty) <$> scan text

/-- The fragment with every marker read from `column`. -/
def compile (d : Dialect) (column text : String) : Traced String := do
  let markers ← scan text
  let accessors ← Traced.each markers fun m => Access.read d column m.path m.type?
  return replaceMarkers text (markers.zip accessors)

end PackedColumn.Fragment
