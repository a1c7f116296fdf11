/-!
# Decimals

A decimal `digits · 10 ^ exponent` and its positional text: the digits, the zeros that reach the
point, and the point only where a fraction follows it.
-/

namespace PackedColumn

/-- The number `digits · 10 ^ exponent`. -/
structure Decimal where
  digits : Nat
  exponent : Int
deriving DecidableEq, Repr

namespace Decimal

/-- The decimal digits, without leading zeros. -/
def digitChars (x : Decimal) : List Char := Nat.toDigits 10 x.digits

/-- The place of the point, counted from the first digit: the number is `0.d₁d₂… · 10 ^ point`. -/
def point (x : Decimal) : Int := x.digitChars.length + x.exponent

/-- The digits before the point, at least one. -/
def wholeChars (x : Decimal) : List Char :=
  if x.point ≤ 0 then ['0']
  else x.digitChars.take x.point.toNat ++ List.replicate x.exponent.toNat '0'

/-- The digits after the point. -/
def fractionChars (x : Decimal) : List Char :=
  List.replicate (-x.point).toNat '0' ++ x.digitChars.drop x.point.toNat

/-- The number written without an exponent, and without a point when it is whole. -/
def positional (x : Decimal) : List Char :=
  if x.fractionChars.isEmpty then x.wholeChars else x.wholeChars ++ '.' :: x.fractionChars

/-- A character of a number's text: a decimal digit or the point. -/
def isNumeral (c : Char) : Bool := c.isDigit || c == '.'

theorem isNumeral_of_mem_digitChars {x : Decimal} {c : Char} (h : c ∈ x.digitChars) :
    isNumeral c = true := by
  have := Nat.isDigit_of_mem_toDigits (b := 10) (by decide) (by decide) h
  simp [isNumeral, this]

/-- The positional text holds nothing but digits and the point. -/
theorem isNumeral_of_mem_positional {x : Decimal} {c : Char} (h : c ∈ x.positional) :
    isNumeral c = true := by
  have hw : ∀ d ∈ x.wholeChars, isNumeral d = true := by
    intro d hd
    unfold wholeChars at hd
    split at hd
    · simp at hd; subst hd; decide
    · rcases List.mem_append.mp hd with hd | hd
      · exact isNumeral_of_mem_digitChars (List.mem_of_mem_take hd)
      · rw [(List.mem_replicate.mp hd).2]; decide
  have hf : ∀ d ∈ x.fractionChars, isNumeral d = true := by
    intro d hd
    rcases List.mem_append.mp hd with hd | hd
    · rw [(List.mem_replicate.mp hd).2]; decide
    · exact isNumeral_of_mem_digitChars (List.mem_of_mem_drop hd)
  unfold positional at h
  split at h
  · exact hw c h
  · rcases List.mem_append.mp h with h | h
    · exact hw c h
    · rcases List.mem_cons.mp h with rfl | h
      · decide
      · exact hf c h

/-- There is a digit before the point. -/
theorem wholeChars_ne_nil (x : Decimal) : x.wholeChars ≠ [] := by
  unfold wholeChars
  split
  · exact List.cons_ne_nil _ _
  · next hpoint =>
    intro h
    rcases List.take_eq_nil_iff.mp (List.append_eq_nil_iff.mp h).1 with hzero | hdigits
    · omega
    · exact Nat.toDigits_ne_nil hdigits

theorem positional_ne_nil (x : Decimal) : x.positional ≠ [] := by
  unfold positional
  split
  · exact x.wholeChars_ne_nil
  · exact List.append_ne_nil_of_left_ne_nil x.wholeChars_ne_nil _

end Decimal

end PackedColumn
