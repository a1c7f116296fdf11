import PackedColumn.Path
import PackedColumn.SqlType

/-!
# Markers in SQL text

A marker names an attribute inside free SQL text: `(!price.net|decimal(6,2)!)`. What stands between
the delimiters is a path, and a type after the last bar that is not escaped by a backslash.

`Candidate.scan` looks at each `(!` that a `!)` follows, from left to right. A candidate whose
contents are no path is passed over, and the search goes on right behind its `(!`; after a marker it
goes on behind the marker. `markersOf` keeps the markers. Offsets count bytes.
-/

namespace PackedColumn

/-- One `(!path|type!)` in a text. -/
structure Marker where
  /-- The offset of the opening delimiter. -/
  start : Nat
  /-- The offset behind the closing delimiter. -/
  stop : Nat
  path : Path
  /-- The text after the bar without the blanks around it, if there is a bar. -/
  typeText : Option String
deriving DecidableEq

namespace Marker

/-- The type that the marker asks for; `none` when there is none or it is outside the grammar. -/
def type? (m : Marker) : Option SqlType := m.typeText.bind SqlType.parse?

/-- The marker as it stands in its text. -/
def source (m : Marker) (text : List Char) : List Char :=
  Text.takeBytes (m.stop - m.start) (Text.dropBytes m.start text)

/-- The parts before and after the last bar with an even run of backslashes before it. `escaped`
says whether an odd run of them stands before the text. -/
def splitType? (escaped : Bool) : List Char → Option (List Char × List Char)
  | [] => none
  | c :: rest =>
    match splitType? (c == '\\' && !escaped) rest with
    | some (path, type) => some (c :: path, type)
    | none => if c = '|' ∧ escaped = false then some ([], rest) else none

/-- The path and the type text of a marker's contents. -/
def decode? (contents : List Char) : Option (Path × Option String) :=
  match splitType? false contents with
  | some (path, type) =>
    (Path.ofMarkerChars? (Text.trim path)).map fun p => (p, some (String.ofList (Text.trim type)))
  | none => (Path.ofMarkerChars? (Text.trim contents)).map fun p => (p, none)

/-- The text before the first `!)` and the text after it. -/
def splitClosing? : List Char → Option (List Char × List Char)
  | [] => none
  | '!' :: ')' :: rest => some ([], rest)
  | c :: rest => (splitClosing? rest).map fun found => (c :: found.1, found.2)

/-- The text is its two parts with the closing delimiter between them. -/
theorem splitClosing?_eq_some {cs contents rest : List Char}
    (h : splitClosing? cs = some (contents, rest)) : cs = contents ++ '!' :: ')' :: rest := by
  fun_induction splitClosing? cs generalizing contents rest with
  | case1 => simp at h
  | case2 tail => simp at h; simp [h]
  | case3 c tail _ ih =>
    obtain ⟨⟨_, _⟩, hfound, he⟩ := Option.map_eq_some_iff.mp h
    simp only [Prod.mk.injEq] at he
    rw [← he.1, ← he.2, ih hfound]
    rfl

theorem splitClosing?_length {cs contents rest : List Char}
    (h : splitClosing? cs = some (contents, rest)) : rest.length < cs.length := by
  rw [splitClosing?_eq_some h, List.length_append, List.length_cons, List.length_cons]
  omega

end Marker

/-- A `(!` with a closing delimiter behind it, as the scan judges it. -/
inductive Candidate where
  | marker (m : Marker)
  /-- Its contents are no path. -/
  | malformed (start : Nat) (text : String)

namespace Candidate

/-- The candidates of a text that starts at `offset`. Without a closing delimiter behind the first
`(!` there is none behind any later one. -/
def scan (offset : Nat) : List Char → List Candidate
  | [] => []
  | '(' :: '!' :: rest =>
    match h : Marker.splitClosing? rest with
    | none => []
    | some (contents, after) =>
      have : after.length < rest.length := Marker.splitClosing?_length h
      match Marker.decode? contents with
      | some (path, typeText) =>
        let stop := offset + 4 + Text.byteLength contents
        .marker ⟨offset, stop, path, typeText⟩ :: scan stop after
      | none =>
        .malformed offset (String.ofList ('(' :: '!' :: (contents ++ ['!', ')'])))
          :: scan (offset + 2) rest
  | c :: rest => scan (offset + c.utf8Size) rest
termination_by cs => cs.length
decreasing_by
  · exact Nat.lt_succ_of_lt (Nat.lt_succ_of_lt this)
  · exact Nat.lt_succ_of_lt (Nat.lt_succ_self _)
  · exact Nat.lt_succ_self _

/-- The marker, if the candidate is one. -/
def marker? : Candidate → Option Marker
  | .marker m => some m
  | .malformed _ _ => none

end Candidate

/-- The candidates of a text. -/
def candidatesOf (text : String) : List Candidate := Candidate.scan 0 text.toList

/-- The markers of a text, in the order in which they stand. -/
def markersOf (text : String) : List Marker := (candidatesOf text).filterMap Candidate.marker?

end PackedColumn
