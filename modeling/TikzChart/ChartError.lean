import TikzChart.Decimal.Shortest
import TikzChart.Files.OsError
import TikzChart.Layout.Tic

/-!
Everything that can go wrong between the data of a chart and its files. Three groups of causes
are kept apart: data that cannot be drawn (`DataError`), geometry that cannot be laid out
(`LayoutError`, or a picture with an open part), and files or tools that fail (`OutputError`).
The wording is in one `message` function for each group.
-/

set_option autoImplicit false

namespace TikzChart

/-- What is missing from a chart without data. -/
inductive Absence where
  | values
  | categories
  | series
  | lines
  | points
deriving DecidableEq, Repr

def Absence.message : Absence → String
  | values => "no values to scale"
  | categories => "no categories"
  | series => "no series"
  | lines => "no lines"
  | points => "no points"

/-- Data that is refused before anything is drawn. -/
inductive DataError where
  | seriesLengthMismatch (expected mismatched : Nat)
  | legendCountMismatch (labels series : Nat)
  | insufficientStyles (requested capacity : Nat)
  | duplicateStyle (name : String)
  | duplicateSeries (name : String)
  | missingValue (series key : String)
  | noData (what : Absence)
deriving DecidableEq, Repr

def DataError.message : DataError → String
  | seriesLengthMismatch expected mismatched =>
    toString mismatched ++ " series do not have one value per key (expected "
      ++ toString expected ++ ")"
  | legendCountMismatch labels series =>
    "legend has " ++ toString labels ++ " entries but there are " ++ toString series ++ " series"
  | insufficientStyles requested capacity =>
    toString requested ++ " series requested but the palette only has " ++ toString capacity
      ++ " styles"
  | duplicateStyle name => "style `" ++ name ++ "` is already defined"
  | duplicateSeries name => "series `" ++ name ++ "` is already present in the data set"
  | missingValue series key => "series `" ++ series ++ "` has no value for key `" ++ key ++ "`"
  | noData what => "nothing to plot: " ++ what.message

/-- Files that cannot be written and tools that do not do their work. -/
inductive OutputError where
  | write (path : String) (cause : OsError)
  | toolLaunch (tool : String) (cause : OsError)
  | toolFailed (tool : String) (status : Nat)
deriving DecidableEq, Repr

namespace OutputError

def message : OutputError → String
  | write path cause => "failed to write " ++ path ++ ": " ++ cause.message
  | toolLaunch tool cause => "failed to launch `" ++ tool ++ "`: " ++ cause.message
  | toolFailed tool status => "`" ++ tool ++ "` exited with exit status: " ++ toString status

/-- The refusal of the operating system behind the failure, if there is one. -/
def cause? : OutputError → Option OsError
  | write _ cause => some cause
  | toolLaunch _ cause => some cause
  | toolFailed _ _ => none

end OutputError

inductive ChartError where
  | data (cause : DataError)
  | layout (cause : LayoutError Float)
  | unbalancedPicture (depth : Nat)
  | output (cause : OutputError)
deriving DecidableEq, Repr

namespace ChartError

def message : ChartError → String
  | data cause => cause.message
  | layout .noValues => (DataError.noData .values).message
  | layout (.degenerateRange low high) =>
    "value range [" ++ Decimal.plainText low ++ ", " ++ Decimal.plainText high
      ++ "] is degenerate; cannot derive a scale"
  | layout (.tooManyTics step limit) =>
    "tic step " ++ Decimal.plainText step ++ " needs more than " ++ toString limit ++ " tics"
  | unbalancedPicture depth => "sub-canvas nesting is unbalanced (depth " ++ toString depth ++ ")"
  | output cause => cause.message

/-- The message and then the messages of what lies behind it. -/
def chain : ChartError → List String
  | output cause => cause.message :: cause.cause?.toList.map OsError.message
  | error => [error.message]

end ChartError

end TikzChart
