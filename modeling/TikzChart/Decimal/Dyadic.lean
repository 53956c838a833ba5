/-!
Finite binary64 values taken apart. `Dyadic` is a sign with a natural multiple of a power of
two, and `Dyadic.ofFloat` reads one off the bit pattern of a finite float. Rounding to whole
numbers is done here on the exact value, so that it can be computed and reasoned about without
the library's opaque routines: `floor` goes down, `round` goes to the nearest whole number and a
half away from zero.

Powers are written with `Nat.pow`, which means the same whether or not a theory of monoids is in
scope.
-/

set_option autoImplicit false

namespace TikzChart

/-- The value `± mantissa * 2 ^ exponent`. -/
structure Dyadic where
  negative : Bool
  mantissa : Nat
  exponent : Int
deriving DecidableEq, Repr

namespace Dyadic

/-- The exact value of a finite float; the sign is kept for zero too. -/
def ofFloat (x : Float) : Dyadic :=
  let bits : Nat := x.toBits.toNat
  let field : Nat := bits / Nat.pow 2 52 % Nat.pow 2 11
  let fraction : Nat := bits % Nat.pow 2 52
  { negative := decide (Nat.pow 2 63 ≤ bits)
    mantissa := if field = 0 then fraction else Nat.pow 2 52 + fraction
    exponent := if field = 0 then -1074 else (field : Int) - 1075 }

/-- The largest natural number not above the magnitude. -/
def wholePart (x : Dyadic) : Nat :=
  match x.exponent with
  | .ofNat up => x.mantissa * Nat.pow 2 up
  | .negSucc down => x.mantissa / Nat.pow 2 (down + 1)

def isWhole (x : Dyadic) : Bool :=
  match x.exponent with
  | .ofNat _ => true
  | .negSucc down => x.mantissa % Nat.pow 2 (down + 1) == 0

/-- The natural number nearest to the magnitude, a half going up. -/
def nearestWhole (x : Dyadic) : Nat :=
  match x.exponent with
  | .ofNat up => x.mantissa * Nat.pow 2 up
  | .negSucc down => (x.mantissa + Nat.pow 2 down) / Nat.pow 2 (down + 1)

end Dyadic

namespace Whole

/-- A natural number below `2 ^ 53` under a sign, as a float. -/
def signed (negative : Bool) (magnitude : Nat) : Float :=
  if negative then -(Float.ofNat magnitude) else Float.ofNat magnitude

/-- From `2 ^ 52` on every float is whole; below it the rounded magnitude fits a float exactly. -/
def isSmall (x : Float) : Bool :=
  x.isFinite && (Dyadic.ofFloat x).exponent < 0

/-- The nearest whole number, a half away from zero; the sign survives when the result is zero. -/
def round (x : Float) : Float :=
  if isSmall x then
    let exact := Dyadic.ofFloat x
    signed exact.negative exact.nearestWhole
  else x

/-- The largest whole number not above the value. -/
def floor (x : Float) : Float :=
  if isSmall x then
    let exact := Dyadic.ofFloat x
    let outward := exact.negative && !exact.isWhole
    signed exact.negative (exact.wholePart + outward.toNat)
  else x

/-- The magnitude of a finite value cut down to a natural number. -/
def toNat (x : Float) : Nat := (Dyadic.ofFloat x).wholePart

end Whole

end TikzChart
