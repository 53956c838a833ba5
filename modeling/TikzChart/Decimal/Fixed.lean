import TikzChart.Decimal.Shortest

/-!
Decimal text with a fixed number of places. The exact value is rounded once, a half to the even
neighbour, and the sign is kept even when every digit is zero.
-/

set_option autoImplicit false

namespace TikzChart.Decimal

/-- The magnitude with exactly `places` digits after the point. A value with `2 ^ -k` as its
unit has at most `k` decimals, so later places hold zeros. -/
def fixedDigits (x : Dyadic) (places : Nat) : List Char :=
  let held := match x.exponent with
    | .ofNat _ => 0
    | .negSucc down => min places (down + 1)
  let scaled := match x.exponent with
    | .ofNat up => x.mantissa * Nat.pow 2 up
    | .negSucc down => roundHalfEven (x.mantissa * Nat.pow 10 held) (Nat.pow 2 (down + 1))
  let digits := positional scaled (-held)
  let point := if held = 0 ∧ 0 < places then ['.'] else []
  digits ++ point ++ List.replicate (places - held) '0'

/-- The value rounded to `places` decimals, a half to the even neighbour. -/
def fixedText (x : Float) (places : Nat) : String :=
  if x.isFinite then
    let exact := Dyadic.ofFloat x
    signText exact.negative ++ String.ofList (fixedDigits exact places)
  else nonFiniteText x

end TikzChart.Decimal
