import PackedColumn.Double
import PackedColumn.Decimal

/-!
# The shortest decimal of a double

Many decimals read back as a given double: those in the interval around it that ends halfway to its
neighbours, ends included when its mantissa is even. `shortest` gives one with the fewest digits,
and of those the nearest to the double. Two can be equally near; `Tie` says which one is taken.

All comparisons are between natural numbers, on the double as a fraction.
-/

namespace PackedColumn.Double

/-- Which of two equally near decimals is taken. -/
inductive Tie where
  /-- The one with the even last digit. -/
  | toEven
  /-- The greater one. -/
  | up
deriving DecidableEq, Repr

/-- The numerator of the magnitude over `denominator`. -/
def numerator (x : Double) : Nat := x.mantissa * twoPow x.exponent.toNat

/-- The denominator of the magnitude, a power of two. -/
def denominator (x : Double) : Nat := twoPow (-x.exponent).toNat

/-- The lower end of the interval that rounds to `x`, over `4 * denominator`. Below a power of two
the doubles are twice as dense. -/
def lowerEnd (x : Double) : Nat :=
  let unit := twoPow x.exponent.toNat
  4 * x.numerator - (if x.mantissa = leadingBit ∧ minExponent < x.exponent then unit else 2 * unit)

/-- The upper end of the interval that rounds to `x`, over `4 * denominator`. -/
def upperEnd (x : Double) : Nat := 4 * x.numerator + 2 * twoPow x.exponent.toNat

/-- Whether the decimal `d · 10 ^ s` rounds to the magnitude of `x`. -/
def accepts (x : Double) (d : Nat) (s : Int) : Bool :=
  let point := d * tenPow s.toNat * (4 * x.denominator)
  let low := x.lowerEnd * tenPow (-s).toNat
  let high := x.upperEnd * tenPow (-s).toNat
  if x.mantissa % 2 = 0 then decide (low ≤ point) && decide (point ≤ high)
  else decide (low < point) && decide (point < high)

/-- The number of decimal digits of `n`. -/
def digitCount (n : Nat) : Nat := (Nat.toDigits 10 n).length

/-- The `p` with `10 ^ p ≤ |x| < 10 ^ (p + 1)`, for `x` not zero. -/
def leadingPlace (x : Double) : Int :=
  let n := x.numerator
  let d := x.denominator
  if d ≤ n then (digitCount (n / d) : Int) - 1
  else
    let k := digitCount (d / n)
    if n * tenPow (k - 1) = d then 1 - (k : Int) else -(k : Int)

/-- The decimal nearest to `x` among its two neighbours with `count` significant digits that round
to `x`; `none` when neither does. -/
def nearestOf (x : Double) (tie : Tie) (count : Nat) : Option Decimal :=
  let s := x.leadingPlace - (count : Int) + 1
  let n := x.numerator * tenPow (-s).toNat
  let d := x.denominator * tenPow s.toNat
  let below := n / d
  let twice := 2 * (n % d)
  match x.accepts below s, x.accepts (below + 1) s with
  | true, true =>
    let takeAbove := decide (d < twice)
      || (twice == d && (match tie with | .up => true | .toEven => below % 2 == 1))
    some ⟨if takeAbove then below + 1 else below, s⟩
  | true, false => some ⟨below, s⟩
  | false, true => some ⟨below + 1, s⟩
  | false, false => none

/-- `x` without the zeros at the end of its digits; `fuel` bounds their number. -/
def dropTrailingZeros (fuel : Nat) (x : Decimal) : Decimal :=
  match fuel with
  | 0 => x
  | fuel + 1 =>
    if x.digits ≠ 0 ∧ x.digits % 10 = 0 then
      dropTrailingZeros fuel ⟨x.digits / 10, x.exponent + 1⟩
    else x

/-- The most digits that a double needs to be read back. -/
def maxDigits : Nat := 17

/-- The magnitude of `x` in the fewest digits that read back as it. -/
def shortest (x : Double) (tie : Tie) : Decimal :=
  if x.mantissa = 0 then ⟨0, 0⟩
  else
    let candidate := (List.range maxDigits).findSome? fun i => x.nearestOf tie (i + 1)
    dropTrailingZeros maxDigits (candidate.getD ⟨x.numerator / x.denominator, 0⟩)

end PackedColumn.Double
