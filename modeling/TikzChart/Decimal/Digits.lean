/-!
Decimal digits of natural numbers, written positionally. `positional d k` is the text of
`d * 10 ^ k` without an exponent: zeros follow the digits when `k` is not negative, and a point
stands `-k` digits from the right otherwise, with at least one digit before it.
-/

set_option autoImplicit false

namespace TikzChart.Decimal

/-- The digits of `d * 10 ^ k`, all of them, with no exponent. -/
def positional (d : Nat) : Int → List Char
  | .ofNat zeros => Nat.toDigits 10 d ++ List.replicate zeros '0'
  | .negSucc places =>
    let digits := Nat.toDigits 10 d
    let padded := List.replicate (places + 2 - digits.length) '0' ++ digits
    let whole := padded.length - (places + 1)
    padded.take whole ++ '.' :: padded.drop whole

/-- `n / d` to the nearest natural number, a half to the even neighbour. -/
def roundHalfEven (n d : Nat) : Nat :=
  let quotient := n / d
  let remainder := n % d
  if 2 * remainder < d then quotient
  else if d < 2 * remainder then quotient + 1
  else quotient + quotient % 2

end TikzChart.Decimal
