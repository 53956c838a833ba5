import TikzChart.Decimal.Binary64

/-!
Reading numbers. A numeral is an optional sign and then either digits with an optional point (a
digit must stand on at least one side of it) and an optional exponent, or one of the words
`inf`, `infinity` and `nan` in any case. Nothing else is a number: no blanks, no grouping, no
other radix.
-/

set_option autoImplicit false

namespace TikzChart

inductive NumeralError where
  | empty
  | invalid
deriving DecidableEq, Repr

/-- What is reported for a text that is no decimal number. -/
def NumeralError.message : NumeralError → String
  | .empty => "cannot parse float from empty string"
  | .invalid => "invalid float literal"

namespace Numeral

def digits (text : List Char) : List Char × List Char :=
  (text.takeWhile Char.isDigit, text.dropWhile Char.isDigit)

def value (digits : List Char) : Nat :=
  digits.foldl (fun sum digit => 10 * sum + (digit.toNat - 48)) 0

/-- A leading sign, and whether it is a minus. -/
def sign : List Char → Bool × List Char
  | '-' :: rest => (true, rest)
  | '+' :: rest => (false, rest)
  | rest => (false, rest)

/-- An exponent is read up to its first digit from which on it is at least this. -/
def exponentLimit : Nat := 65536

/-- The size of an exponent. Further digits of one that is beyond the limit do not count. -/
def exponentSize (digits : List Char) : Nat :=
  digits.foldl (fun size digit =>
    if size < exponentLimit then 10 * size + (digit.toNat - 48) else size) 0

/-- The exponent part, or nothing at all. -/
def exponent? : List Char → Option Int
  | [] => some 0
  | mark :: rest =>
    if mark = 'e' ∨ mark = 'E' then
      let (negative, unsigned) := sign rest
      let (power, after) := digits unsigned
      if power.isEmpty ∨ !after.isEmpty then none
      else some (if negative then -(exponentSize power : Int) else exponentSize power)
    else none

/-- An unsigned decimal: its digits without the point, and the power of ten they are multiplied
by. -/
def decimal? (text : List Char) : Option (Nat × Int) :=
  let (whole, afterWhole) := digits text
  let (fraction, afterFraction) := match afterWhole with
    | '.' :: rest => digits rest
    | rest => ([], rest)
  if whole.isEmpty ∧ fraction.isEmpty then none
  else (exponent? afterFraction).map fun power =>
    (value (whole ++ fraction), power - fraction.length)

/-- The magnitude that a word stands for. -/
def word? (text : List Char) : Option Nat :=
  match String.ofList (text.map Char.toLower) with
  | "inf" => some Binary64.infinityMagnitude
  | "infinity" => some Binary64.infinityMagnitude
  | "nan" => some Binary64.nanMagnitude
  | _ => none

/-- The datum nearest to the number that the text denotes. -/
def read (text : String) : Except NumeralError Binary64 :=
  if text.isEmpty then .error .empty
  else
    let (negative, unsigned) := sign text.toList
    match decimal? unsigned with
    | some (digits, exponent) =>
      .ok (Binary64.ofMagnitude negative (Binary64.ofDecimal digits exponent))
    | none =>
      match word? unsigned with
      | some magnitude => .ok (Binary64.ofMagnitude negative magnitude)
      | none => .error .invalid

/-- The largest count that can be written: counts are 64-bit words. -/
def maxCount : Nat := Nat.pow 2 64 - 1

/-- A count: digits, perhaps after a plus sign, within the range of a 64-bit word. -/
def readCount? (text : String) : Option Nat :=
  let unsigned := match text.toList with
    | '+' :: rest => rest
    | all => all
  let (counted, after) := digits unsigned
  if counted.isEmpty ∨ !after.isEmpty ∨ maxCount < value counted then none
  else some (value counted)

end Numeral

end TikzChart
