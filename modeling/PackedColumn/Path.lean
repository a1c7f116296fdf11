import PackedColumn.Error
import PackedColumn.Unicode.Class

/-!
# Attribute paths

A dotted name splits into the keys that lead to an attribute: `price.wholesale.12` is the key `12`
in `wholesale` in `price`. A path has at least one segment and no empty one, so it always has a
leaf, and every name that `parse` accepts is the path's display.
-/

namespace PackedColumn

/-- The keys that lead to an attribute, outermost first. -/
structure Path where
  segments : List String
  segments_ne_nil : segments ≠ []
  ne_empty_of_mem : ∀ s ∈ segments, s ≠ ""
deriving DecidableEq

namespace Path

/-- The path with the given segments, if there is one. -/
def ofSegments? (segments : List String) : Option Path :=
  if h : segments ≠ [] ∧ ∀ s ∈ segments, s ≠ "" then some ⟨segments, h.1, h.2⟩ else none

/-- The dotted name with the given segments. -/
def joined (segments : List String) : String := ".".intercalate segments

/-- The pieces of a name between its dots. -/
def pieces (name : String) : List String := (name.toList.splitOn '.').map String.ofList

/-- The path with the given segments. -/
def ofSegments (segments : List String) : Except CompileError Path :=
  match ofSegments? segments with
  | some path => .ok path
  | none => .error (.invalidPath (joined segments))

/-- The path that a name spells, if it spells one. -/
def parse? (name : String) : Option Path := ofSegments? (pieces name)

/-- The path that a name spells. -/
def parse (name : String) : Except CompileError Path :=
  match parse? name with
  | some path => .ok path
  | none => .error (.invalidPath name)

/-- The segments before the last. -/
def parents (path : Path) : List String := path.segments.dropLast

/-- The last segment. -/
def leaf (path : Path) : String := path.segments.getLast path.segments_ne_nil

/-- The number of segments. -/
def length (path : Path) : Nat := path.segments.length

/-- The dotted name of the path. -/
def display (path : Path) : String := joined path.segments

/-- A character that a segment inside a marker may hold. -/
def isMarkerChar (c : Char) : Bool :=
  Unicode.isAlphanumeric c || c == '_' || c == '-' || c == '$'

/-- Whether a text may be a segment inside a marker. The characters are restricted so that SQL that
happens to stand between the delimiters of a marker is not taken for a path. -/
def isMarkerSegment (cs : List Char) : Bool := !cs.isEmpty && cs.all isMarkerChar

/-- The path of a marker's contents, if its segments are fit for a marker. -/
def ofMarkerChars? (cs : List Char) : Option Path :=
  let segments := cs.splitOn '.'
  if segments.all isMarkerSegment then ofSegments? (segments.map String.ofList) else none

theorem parents_append_leaf (path : Path) : path.parents ++ [path.leaf] = path.segments :=
  List.dropLast_concat_getLast path.segments_ne_nil

@[simp] theorem pieces_ne_nil (name : String) : pieces name ≠ [] := by
  simp [pieces, List.splitOn_ne_nil]

/-- Joining the pieces of a name gives it back. -/
@[simp] theorem joined_pieces (name : String) : joined (pieces name) = name := by
  rw [← String.toList_inj]
  simp [joined, pieces, Function.comp_def, List.intercalate_splitOn]

end Path

end PackedColumn
