import PackedColumn.Scale

/-!
# Finite doubles

A double is kept as its exact value `± mantissa · 2 ^ exponent`, so arithmetic on it is arithmetic
on natural numbers followed by one rounding. Infinities and NaN have no value of this type: an
operation whose result would be one of them gives `none`.

* `ofRatio?` rounds a fraction to the nearest double, a tie going to the even mantissa.
* `mul?` and `div?` round the exact product and quotient.
* `scaleByPowerOfTen?` multiplies by a power of ten in steps that are each rounded.
* `ofFloat?` reads a machine float.
-/

namespace PackedColumn

/-- The number `mantissa · 2 ^ exponent`, negated when `negative` (zero has both signs). -/
structure Double where
  negative : Bool
  mantissa : Nat
  exponent : Int
deriving DecidableEq, Repr

namespace Double

/-- The least exponent: one unit of it is the smallest positive double. -/
def minExponent : Int := -1074

/-- The greatest exponent of a finite double. -/
def maxExponent : Int := 971

/-- The least mantissa of a double that is not subnormal; mantissas lie below its double. -/
def leadingBit : Nat := twoPow 52

/-- The zero of a sign. -/
def zero (negative : Bool) : Double := ⟨negative, 0, minExponent⟩

/-- The quotient rounded to the nearest whole number, a tie to the even one. -/
def roundDiv (num den : Nat) : Nat :=
  let q := num / den
  let r := num % den
  if 2 * r < den ∨ (2 * r = den ∧ q % 2 = 0) then q else q + 1

/-- The fraction `num / den` divided by `2 ^ e`, as a numerator and a denominator. -/
def unscale (num den : Nat) (e : Int) : Nat × Nat :=
  (num * twoPow (-e).toNat, den * twoPow e.toNat)

/-- The double nearest to `num / den`; `none` when it would be infinite.

With `g` the difference of the bit lengths less 52, the fraction over `2 ^ g` lies between `2 ^ 51`
and `2 ^ 53`, so the exponent is `g` or `g - 1`, unless the number is subnormal. -/
def ofRatio? (negative : Bool) (num den : Nat) : Option Double :=
  if num = 0 then some (zero negative)
  else
    let g : Int := (num.log2 : Int) - den.log2 - 52
    let wide := unscale num den g
    let e := max minExponent (if wide.1 / wide.2 < leadingBit then g - 1 else g)
    let exact := unscale num den e
    let m := roundDiv exact.1 exact.2
    if m < 2 * leadingBit then
      if e ≤ maxExponent then some ⟨negative, m, e⟩ else none
    else if e + 1 ≤ maxExponent then some ⟨negative, leadingBit, e + 1⟩ else none

/-- The rounded product. -/
def mul? (x y : Double) : Option Double :=
  let e := x.exponent + y.exponent
  ofRatio? (x.negative != y.negative) (x.mantissa * y.mantissa * twoPow e.toNat)
    (twoPow (-e).toNat)

/-- The rounded quotient; `none` when the divisor is zero. -/
def div? (x y : Double) : Option Double :=
  let e := x.exponent - y.exponent
  if y.mantissa = 0 then none
  else
    ofRatio? (x.negative != y.negative) (x.mantissa * twoPow e.toNat)
      (y.mantissa * twoPow (-e).toNat)

/-- The double with the other sign. -/
def neg (x : Double) : Double := { x with negative := !x.negative }

/-- The double nearest to `10 ^ k`. -/
def powerOfTen? (k : Nat) : Option Double := ofRatio? false (tenPow k) 1

/-- The greatest power of ten that is a finite double. -/
def maxPowerOfTen : Nat := 308

/-- `x / 10 ^ k`, rounded after each division by at most `10 ^ maxPowerOfTen`. -/
def divPowerOfTen? (x : Double) (k : Nat) : Option Double :=
  if k ≤ maxPowerOfTen then powerOfTen? k >>= x.div?
  else if x.mantissa = 0 then some x
  else do
    let y ← powerOfTen? maxPowerOfTen >>= x.div?
    divPowerOfTen? y (k - maxPowerOfTen)
termination_by k
decreasing_by simp only [maxPowerOfTen] at *; omega

/-- `x * 10 ^ e`, rounded step by step; `none` when it is too large for a double. -/
def scaleByPowerOfTen? (x : Double) (e : Int) : Option Double :=
  if e < 0 then x.divPowerOfTen? (-e).toNat
  else if e.toNat ≤ maxPowerOfTen then powerOfTen? e.toNat >>= x.mul?
  else if x.mantissa = 0 then some x
  else none

/-- How many codes the exponent of a machine float has. The last stands for infinities and NaN, and
the code `0` for the subnormal numbers. -/
def exponentCodes : Nat := 2048

/-- The exact value of a machine float; `none` for infinities and NaN. -/
def ofFloat? (x : Float) : Option Double :=
  let bits : Nat := x.toBits.toNat
  let negative := decide (signedBound ≤ bits)
  let biased : Nat := bits / leadingBit % exponentCodes
  let fraction : Nat := bits % leadingBit
  if biased = exponentCodes - 1 then none
  else if biased = 0 then some ⟨negative, fraction, minExponent⟩
  else some ⟨negative, fraction + leadingBit, (biased : Int) - 1075⟩

end Double

end PackedColumn
