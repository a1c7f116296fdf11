/-!
# Powers of two and ten

The scales of binary and decimal fractions, and the bounds of machine words.
-/

namespace PackedColumn

/-- The `k`th power of two. -/
def twoPow (k : Nat) : Nat := Nat.pow 2 k

/-- The `k`th power of ten. -/
def tenPow (k : Nat) : Nat := Nat.pow 10 k

/-- The first whole number that needs more than 64 bits. -/
def wordBound : Nat := twoPow 64

/-- The first whole number that is too large for a signed word of 64 bits. -/
def signedBound : Nat := twoPow 63

end PackedColumn
