import TikzChart.Data.Series
import TikzChart.Decimal.Numeral
import TikzChart.Text.Blank

/-!
Result files in key-value form. Each line has a key and a value, separated by blanks; further
words are ignored, and so are blank lines and lines that begin with `#`. A later value of a key
replaces an earlier one. The first line that fits neither form is reported with its number.
-/

set_option autoImplicit false

namespace TikzChart

/-- What is wrong with a line; lines count from 1. -/
inductive KeyValueError where
  | missingField (line : Nat)
  | badValue (line : Nat) (text : String) (cause : NumeralError)
deriving DecidableEq, Repr

def KeyValueError.chain : KeyValueError → List String
  | missingField line => ["line " ++ toString line ++ ": expected `key value`"]
  | badValue line text cause =>
    ["line " ++ toString line ++ ": bad value '" ++ text ++ "'", cause.message]

namespace KeyValue

def readLine (number : Nat) (line : List Char) :
    Except KeyValueError (Option (String × Binary64)) :=
  let content := Text.trimChars line
  if content.isEmpty || content.head? == some '#' then .ok none
  else match Text.words content with
    | key :: value :: _ =>
      match Numeral.read (String.ofList value) with
      | .ok datum => .ok (some (String.ofList key, datum))
      | .error cause => .error (.badValue number (String.ofList value) cause)
    | _ => .error (.missingField number)

def readLines (series : Series Binary64) (number : Nat) :
    List (List Char) → Except KeyValueError (Series Binary64)
  | [] => .ok series
  | line :: lines =>
    match readLine number line with
    | .error cause => .error cause
    | .ok none => readLines series (number + 1) lines
    | .ok (some (key, value)) => readLines (series.insert key value) (number + 1) lines

def read (text : List Char) : Except KeyValueError (Series Binary64) :=
  readLines .empty 1 (Text.lines text)

end KeyValue

end TikzChart
