import PackedColumn.Unicode.Class

/-!
# Text inside messages

A message quotes the text it speaks of. Quotes and backslashes are escaped, and whatever a reader
could not see or would see attached to its neighbour is written as its code point, so two different
texts never look alike.
-/

namespace PackedColumn.Message

/-- A character as it stands between the quotes of a message. -/
def escape (c : Char) : List Char :=
  if c = '\x00' then ['\\', '0']
  else if c = '\t' then ['\\', 't']
  else if c = '\n' then ['\\', 'n']
  else if c = '\r' then ['\\', 'r']
  else if c = '"' then ['\\', '"']
  else if c = '\\' then ['\\', '\\']
  else if Unicode.isPlain c then [c]
  else '\\' :: 'u' :: '{' :: (Nat.toDigits 16 c.toNat ++ ['}'])

/-- A text between quotes, fit for a message. -/
def quoted (s : String) : String := .ofList ('"' :: (s.toList.flatMap escape ++ ['"']))

end PackedColumn.Message
