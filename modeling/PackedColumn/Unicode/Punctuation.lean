import PackedColumn.Unicode.Range

/-!
# Blanks, connectors and joiners

The small properties: `whiteSpace` separates words, `connector` (general category `Pc`) and
`joinControl` hold a word together.
-/

namespace PackedColumn.Unicode

/-- The property `White_Space`. -/
def whiteSpace : List (Nat × Nat) :=
  [(0x9, 0xd), (0x20, 0x20), (0x85, 0x85), (0xa0, 0xa0), (0x1680, 0x1680), (0x2000, 0x200a),
   (0x2028, 0x2029), (0x202f, 0x202f), (0x205f, 0x205f), (0x3000, 0x3000)]

/-- The general category `Pc`, such as the underscore. -/
def connector : List (Nat × Nat) :=
  [(0x5f, 0x5f), (0x203f, 0x2040), (0x2054, 0x2054), (0xfe33, 0xfe34), (0xfe4d, 0xfe4f),
   (0xff3f, 0xff3f)]

/-- The property `Join_Control`: the zero-width joiner and non-joiner. -/
def joinControl : List (Nat × Nat) :=
  [(0x200c, 0x200d)]

end PackedColumn.Unicode
