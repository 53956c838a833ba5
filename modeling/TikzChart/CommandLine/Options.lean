import TikzChart.Decimal.Numeral
import TikzChart.FontSize
import TikzChart.Text.Blank

/-!
The options of the command line and what they are set to. A `Switch` is an option that can be
written; `Switch.set` reads the value that it is given and stores it.
-/

set_option autoImplicit false

namespace TikzChart

inductive ChartKind where
  | bars
  | lines
deriving DecidableEq, Repr

inductive OutputFormat where
  | tikz
  | tex
  | pdf
deriving DecidableEq, Repr

structure Options where
  compare : List String := []
  table : Option String := none
  normalize : Option String := none
  ignore : List String := []
  noMean : Bool := false
  amean : Bool := false
  sortBy : Option String := none
  kind : ChartKind := .bars
  width : Option Float := none
  height : Option Float := none
  ceiling : Option Float := none
  ticStep : Option Float := none
  ticCount : Option Nat := none
  keyPadding : Float := 0.3
  legendShift : Option (Float × Float) := none
  scale : Option Float := none
  valueBase : Float := 0
  valueCeiling : Float := 0
  markers : Bool := false
  noPadding : Bool := false
  xTicsStep : Nat := 10
  noLegend : Bool := false
  title : Option String := none
  xLabel : Option String := none
  yLabel : Option String := none
  ticFont : Option FontSize := none
  labelFont : Option FontSize := none
  printTable : Bool := false
  round : Nat := 2
  noHeader : Bool := false
  output : String := "plot"
  format : OutputFormat := .pdf
  pdflatex : Bool := false
  verbose : Bool := false
deriving DecidableEq, Repr

inductive UsageError where
  | invalidValue
  | valueValidation
  | unknownArgument
  | argumentConflict
  | tooManyValues
  | displayHelp
  | displayVersion
deriving DecidableEq, Repr

def UsageError.message : UsageError → String
  | invalidValue => "an option lacks its value, or its value is none of the possible ones"
  | valueValidation => "the value of an option has the wrong form"
  | unknownArgument => "an argument is not known"
  | argumentConflict => "options exclude each other, or one of them is given twice"
  | tooManyValues => "a flag takes no value"
  | displayHelp | displayVersion => ""

inductive Switch where
  | compare | table | normalize | ignore | noMean | amean | sortBy | kind | width | height | ceiling
  | ticStep | ticCount | keyPadding | legendShift | scale | valueBase | valueCeiling | markers
  | noPadding | xTicsStep | noLegend | title | xLabel | yLabel | ticFont | labelFont | printTable
  | round | noHeader | output | format | pdflatex | verbose | help | version
deriving DecidableEq, Repr

inductive PairError where
  | noComma (text : String)
  | badX (text : String) (cause : NumeralError)
  | badY (text : String) (cause : NumeralError)
deriving DecidableEq, Repr

def PairError.message : PairError → String
  | noComma text => "expected X,Y, got '" ++ text ++ "'"
  | badX text cause => "bad X '" ++ text ++ "': " ++ cause.message
  | badY text cause => "bad Y '" ++ text ++ "': " ++ cause.message

def readPadded (text : List Char) : Except NumeralError Float :=
  (Numeral.read (String.ofList (Text.trimChars text))).map Binary64.toFloat

/-- Two numbers around the first comma, blanks around either not counting. A part that is no
number is reported as it was written, with its blanks. -/
def readPair (text : String) : Except PairError (Float × Float) :=
  match Text.splitFirst? ',' text.toList with
  | none => .error (.noComma text)
  | some (before, after) => do
    let x ← (readPadded before).mapError (.badX (String.ofList before))
    let y ← (readPadded after).mapError (.badY (String.ofList after))
    pure (x, y)

namespace Switch

def names : List (String × Switch) :=
  [("compare", compare), ("table", table), ("normalize", normalize), ("ignore", ignore),
    ("no-mean", noMean), ("amean", amean), ("sort-by", sortBy), ("kind", kind), ("width", width),
    ("height", height), ("ceiling", ceiling), ("tic-step", ticStep), ("tic-count", ticCount),
    ("key-padding", keyPadding), ("legend-shift", legendShift), ("scale", scale),
    ("value-base", valueBase), ("value-ceiling", valueCeiling), ("markers", markers),
    ("no-padding", noPadding), ("x-tics-step", xTicsStep), ("no-legend", noLegend),
    ("title", title), ("xlabel", xLabel), ("ylabel", yLabel), ("tic-font", ticFont),
    ("label-font", labelFont), ("print-table", printTable), ("round", round),
    ("no-header", noHeader), ("output", output), ("format", format), ("pdflatex", pdflatex),
    ("verbose", verbose), ("help", help), ("version", version)]

def ofName? (name : String) : Option Switch := names.lookup name

def ofLetter? : Char → Option Switch
  | 'o' => some output
  | 'v' => some verbose
  | 'h' => some help
  | 'V' => some version
  | _ => none

def isFlag : Switch → Bool
  | noMean | amean | markers | noPadding | noLegend | printTable | noHeader | pdflatex | verbose
  | help | version => true
  | _ => false

def isRepeatable : Switch → Bool
  | compare | ignore => true
  | _ => false

/-- Whether the argument after the option is its value even if it begins with a dash. -/
def takesDashes : Switch → Bool
  | legendShift | valueBase | valueCeiling => true
  | _ => false

def float (value : String) : Except UsageError Float :=
  match Numeral.read value with
  | .ok datum => .ok datum.toFloat
  | .error _ => .error .valueValidation

def count (value : String) : Except UsageError Nat :=
  match Numeral.readCount? value with
  | some n => .ok n
  | none => .error .valueValidation

def font (value : String) : Except UsageError FontSize :=
  match FontSize.parse value with
  | .ok size => .ok size
  | .error _ => .error .valueValidation

def path (value : String) : Except UsageError String :=
  if value.isEmpty then .error .invalidValue else .ok value

def raise (options : Options) : Switch → Except UsageError Options
  | noMean => .ok { options with noMean := true }
  | amean => .ok { options with amean := true }
  | markers => .ok { options with markers := true }
  | noPadding => .ok { options with noPadding := true }
  | noLegend => .ok { options with noLegend := true }
  | printTable => .ok { options with printTable := true }
  | noHeader => .ok { options with noHeader := true }
  | pdflatex => .ok { options with pdflatex := true }
  | verbose => .ok { options with verbose := true }
  | help => .error .displayHelp
  | version => .error .displayVersion
  | _ => .error .invalidValue

def set (options : Options) (switch : Switch) (value : String) : Except UsageError Options :=
  match switch with
  | compare => .ok { options with compare := options.compare ++ [value] }
  | table => (path value).map fun table => { options with table := some table }
  | normalize => .ok { options with normalize := some value }
  | ignore => .ok { options with ignore := options.ignore ++ [value] }
  | sortBy => .ok { options with sortBy := some value }
  | kind => match value with
    | "bars" => .ok { options with kind := .bars }
    | "lines" => .ok { options with kind := .lines }
    | _ => .error .invalidValue
  | width => (float value).map fun width => { options with width := some width }
  | height => (float value).map fun height => { options with height := some height }
  | ceiling => (float value).map fun ceiling => { options with ceiling := some ceiling }
  | ticStep => (float value).map fun step => { options with ticStep := some step }
  | ticCount => (count value).map fun n => { options with ticCount := some n }
  | keyPadding => (float value).map fun keyPadding => { options with keyPadding }
  | legendShift => match readPair value with
    | .ok shift => .ok { options with legendShift := some shift }
    | .error _ => .error .valueValidation
  | scale => (float value).map fun scale => { options with scale := some scale }
  | valueBase => (float value).map fun valueBase => { options with valueBase }
  | valueCeiling => (float value).map fun valueCeiling => { options with valueCeiling }
  | xTicsStep => (count value).map fun xTicsStep => { options with xTicsStep }
  | title => .ok { options with title := some value }
  | xLabel => .ok { options with xLabel := some value }
  | yLabel => .ok { options with yLabel := some value }
  | ticFont => (font value).map fun size => { options with ticFont := some size }
  | labelFont => (font value).map fun size => { options with labelFont := some size }
  | round => (count value).map fun round => { options with round }
  | output => (path value).map fun output => { options with output }
  | format => match value with
    | "tikz" => .ok { options with format := .tikz }
    | "tex" => .ok { options with format := .tex }
    | "pdf" => .ok { options with format := .pdf }
    | _ => .error .invalidValue
  | _ => .error .tooManyValues

end Switch

end TikzChart
