import TikzChart.Decimal.Digits

/-!
Bit patterns of binary64 data. Measured values are kept as patterns rather than floats, because a
pattern remembers the sign of a NaN and the total order of patterns can tell it:
negative NaN, `-inf`, the negative numbers, `-0`, `0`, the positive numbers, `inf`, NaN.

`ofRatio` and `ofDecimal` round an exact value to the nearest pattern, a half to the even one.
-/

set_option autoImplicit false

namespace TikzChart

structure Binary64 where
  bits : UInt64
deriving DecidableEq, Repr

namespace Binary64

/-- The magnitude of infinity; larger magnitudes are NaNs. -/
def infinityMagnitude : Nat := 2047 * Nat.pow 2 52

/-- The magnitude of the NaN that reading and arithmetic produce. -/
def nanMagnitude : Nat := infinityMagnitude + Nat.pow 2 51

/-- A pattern from its sign and the 63 bits below it. -/
def ofMagnitude (negative : Bool) (magnitude : Nat) : Binary64 :=
  ⟨UInt64.ofNat (negative.toNat * Nat.pow 2 63 + magnitude)⟩

def isNegative (x : Binary64) : Bool := decide (Nat.pow 2 63 ≤ x.bits.toNat)

def magnitude (x : Binary64) : Nat := x.bits.toNat % Nat.pow 2 63

def isNaN (x : Binary64) : Bool := decide (infinityMagnitude < x.magnitude)

def isZero (x : Binary64) : Bool := x.magnitude == 0

/-- The float with this pattern; every NaN becomes the one that floats have. -/
def toFloat (x : Binary64) : Float := Float.ofBits x.bits

def ofFloat (x : Float) : Binary64 := ⟨x.toBits⟩

/-- The place of a pattern in the total order. -/
def orderKey (x : Binary64) : Int :=
  if x.isNegative then -1 - (x.magnitude : Int) else x.magnitude

/-- The total order of patterns. -/
def totalLe (x y : Binary64) : Bool := decide (x.orderKey ≤ y.orderKey)

/-- The quotient. A NaN operand is passed on, the dividend first; a quotient that has no value
is the negative NaN. -/
def div (x y : Binary64) : Binary64 :=
  if x.isNaN then x
  else if y.isNaN then y
  else
    let quotient := x.toFloat / y.toFloat
    if quotient.isNaN then ofMagnitude true nanMagnitude else ofFloat quotient

/-- `n / d * 2 ^ -e`, as a fraction. -/
def scaled (n d : Nat) : Int → Nat × Nat
  | .ofNat up => (n, d * Nat.pow 2 up)
  | .negSucc down => (n * Nat.pow 2 (down + 1), d)

/-- The exponent of the last place of `n / d`: the one that leaves 53 bits, but never below the
subnormal numbers. -/
def unitExponent (n d : Nat) : Int :=
  let low := (n.log2 : Int) - d.log2 - 53
  let (top, bottom) := scaled n d low
  max (if Nat.pow 2 53 * bottom ≤ top then low + 1 else low) (-1074)

/-- The magnitude nearest to the positive fraction `n / d`, a half to the even one; too large a
fraction gives infinity. A carry out of the fraction bits moves into the exponent bits by itself. -/
def ofRatio (n d : Nat) : Nat :=
  let unit := unitExponent n d
  let (top, bottom) := scaled n d unit
  min ((unit + 1074).toNat * Nat.pow 2 52 + Decimal.roundHalfEven top bottom) infinityMagnitude

/-- The magnitude nearest to `digits * 10 ^ exponent`. Exponents far outside the range are settled
without computing the power. -/
def ofDecimal (digits : Nat) (exponent : Int) : Nat :=
  if digits = 0 then 0
  else match exponent with
    | .ofNat up => if 400 < up then infinityMagnitude else ofRatio (digits * Nat.pow 10 up) 1
    | .negSucc down =>
      if digits.log2 + 400 < down then 0 else ofRatio digits (Nat.pow 10 (down + 1))

end Binary64

end TikzChart
