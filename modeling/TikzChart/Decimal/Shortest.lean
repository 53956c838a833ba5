import TikzChart.Decimal.Digits
import TikzChart.Decimal.Dyadic

/-!
The shortest decimal text of a float. The reals that round to a finite float form an interval; the
text is the multiple of the largest possible power of ten that lies in it, and of two such multiples
the nearer one (the upper one when both are equally near). It never has an exponent.

`Interval.ofDyadic` gives the interval in whole units of a power of ten, `Interval.coarsest` walks
down the powers of ten, and `plainText` writes the result.
-/

set_option autoImplicit false

namespace TikzChart.Decimal

/-- The reals that round to one value, in units of `10 ^ unit`: from `low` to `high` around `value`,
the ends included when `closed`. -/
structure Interval where
  low : Nat
  value : Nat
  high : Nat
  unit : Int
  closed : Bool
deriving DecidableEq, Repr

namespace Interval

/-- The neighbours of `m * 2 ^ e` are half a unit of the last place away, except that below a power
of two the lower one is a quarter away. Everything is counted in quarters, and a power of two with a
negative exponent is a power of five over a power of ten. The ends belong to an even mantissa. -/
def ofDyadic (x : Dyadic) : Interval :=
  let quarter := match x.exponent - 2 with
    | .ofNat up => Nat.pow 2 up
    | .negSucc down => Nat.pow 5 (down + 1)
  let toLow := if x.mantissa = Nat.pow 2 52 ∧ -1074 < x.exponent then 1 else 2
  { low := (4 * x.mantissa - toLow) * quarter
    value := 4 * x.mantissa * quarter
    high := (4 * x.mantissa + 2) * quarter
    unit := min (x.exponent - 2) 0
    closed := x.mantissa % 2 == 0 }

def contains (i : Interval) (n : Nat) : Bool :=
  if i.closed then decide (i.low ≤ n) && decide (n ≤ i.high)
  else decide (i.low < n) && decide (n < i.high)

/-- The multiple of `10 ^ power` in the interval that is nearest to the value, if there is one. -/
def multiple? (i : Interval) (power : Nat) : Option Nat :=
  let grid := Nat.pow 10 power
  let below := i.value / grid
  let above := below + 1
  let hasBelow := i.contains (below * grid)
  let hasAbove := i.contains (above * grid)
  let belowIsNearer := decide (i.value - below * grid < above * grid - i.value)
  if hasBelow && (!hasAbove || belowIsNearer) then some below
  else if hasAbove then some above
  else none

/-- The largest power of ten up to `power` with a multiple in the interval, and that multiple. -/
def coarsest (i : Interval) : Nat → Nat × Nat
  | 0 => (i.value, 0)
  | power + 1 =>
    match i.multiple? (power + 1) with
    | some found => (found, power + 1)
    | none => i.coarsest power

/-- No multiple of a power of ten from here on is small enough for the interval. -/
def powerBound (i : Interval) : Nat := (i.high.log2 + 1) * 30103 / 100000 + 1

def shortest (i : Interval) : Nat × Int :=
  let (digits, power) := i.coarsest i.powerBound
  (digits, power + i.unit)

end Interval

/-- The shortest decimal magnitude of a finite value, written without an exponent. -/
def shortestDigits (x : Dyadic) : List Char :=
  if x.mantissa = 0 then ['0']
  else
    let (digits, exponent) := (Interval.ofDyadic x).shortest
    positional digits exponent

/-- A minus sign stands before every negative value, zero included. -/
def signText (negative : Bool) : String := if negative then "-" else ""

/-- The names of the values that have no digits. -/
def nonFiniteText (x : Float) : String :=
  if x.isNaN then "NaN" else if x < 0 then "-inf" else "inf"

/-- The shortest decimal that reads back as the same value, never with an exponent; whole numbers
have no point. -/
def plainText (x : Float) : String :=
  if x.isFinite then
    let exact := Dyadic.ofFloat x
    signText exact.negative ++ String.ofList (shortestDigits exact)
  else nonFiniteText x

end TikzChart.Decimal
