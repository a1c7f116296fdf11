import PackedColumn.Unicode.Alphabetic
import PackedColumn.Unicode.Digit
import PackedColumn.Unicode.Mark
import PackedColumn.Unicode.Punctuation
import PackedColumn.Unicode.Recent
import PackedColumn.Unicode.Unprintable

/-!
# Character classes

The classes that the grammars of this library are written in: blanks, digits, the characters of a
name and of a word, and the characters that a message shows as they are.

A name may hold every letter and number of version 17 of the standard. Digits and words, which the
grammars of types and aliases speak of, keep to version 16.
-/

namespace PackedColumn.Unicode

/-- A blank: a character with the property `White_Space`. -/
def isBlank (c : Char) : Bool := inRanges whiteSpace c.toNat

/-- A character that version 17 of the standard added. -/
def isRecent (c : Char) : Bool := inRanges recent c.toNat

/-- A decimal digit of any script, as of version 16. -/
def isDigit (c : Char) : Bool := inRanges decimalDigit c.toNat && !isRecent c

/-- A letter. -/
def isAlphabetic (c : Char) : Bool := inRanges alphabetic c.toNat

/-- A letter or a number of any kind. -/
def isAlphanumeric (c : Char) : Bool :=
  isAlphabetic c || inRanges decimalDigit c.toNat || inRanges otherNumber c.toNat

/-- A character of a word: a letter, a mark, a decimal digit, a connector such as the underscore,
or one of the two joiners, as of version 16. -/
def isWord (c : Char) : Bool :=
  (isAlphabetic c || inRanges decimalDigit c.toNat || inRanges mark c.toNat
    || inRanges connector c.toNat || inRanges joinControl c.toNat) && !isRecent c

/-- A character that attaches to the one before it. The halfwidth voicing marks have the property
`Grapheme_Extend` as well, but take a place of their own. -/
def attaches (c : Char) : Bool :=
  inRanges graphemeExtend c.toNat && !inRanges halfwidthVoicing c.toNat

/-- A character that stands for itself in a message: it has a glyph of its own and does not attach
to its neighbour. -/
def isPlain (c : Char) : Bool :=
  !attaches c && !inRanges filler c.toNat && !inRanges unprintable c.toNat

end PackedColumn.Unicode
