import TikzChart.Data.Csv
import TikzChart.Data.KeyValue
import TikzChart.Data.Table
import TikzChart.Files.Workspace

/-!
Loading tables, from one comma-separated file or from one key-value file a series. Either way
the table holds the keys that every series has a value for.
-/

set_option autoImplicit false

namespace TikzChart

inductive ReadError where
  | os (cause : OsError)
  | notUtf8
deriving DecidableEq, Repr

def ReadError.message : ReadError → String
  | os cause => cause.message
  | notUtf8 => "stream did not contain valid UTF-8"

/-- Why a record cannot be used; records count from 0. -/
inductive RecordError where
  | notUtf8 (record : Nat) (start : Csv.Spot) (bad : Csv.BadField)
  | unequalLength (record : Nat) (start : Csv.Spot) (length expected : Nat)
deriving DecidableEq, Repr

def RecordError.message : RecordError → String
  | notUtf8 record start bad =>
    "CSV parse error: record " ++ toString record ++ " (line " ++ toString start.line ++ ", field: "
      ++ toString bad.field ++ ", byte: " ++ toString start.byte
      ++ "): invalid utf-8: invalid UTF-8 in field " ++ toString bad.field ++ " near byte index "
      ++ toString bad.byte
  | unequalLength record start length expected =>
    "CSV error: record " ++ toString record ++ " (line: " ++ toString start.line ++ ", byte: "
      ++ toString start.byte ++ "): found record with " ++ toString length
      ++ " fields, but the previous record has " ++ toString expected ++ " fields"

inductive LoadError where
  | notNamedPath (argument : String)
  | unreadable (path : String) (cause : ReadError)
  | keyValue (path : String) (cause : KeyValueError)
  | cannotOpen (path : String) (cause : OsError)
  | isDirectory
  | header (cause : RecordError)
  | tooFewColumns (path : String)
  | record (path : String) (row : Nat) (cause : RecordError)
  | badCell (path : String) (row : Nat) (cell : String) (cause : NumeralError)
  | data (cause : DataError)
deriving DecidableEq, Repr

namespace LoadError

def rowText (path : String) (row : Nat) : String := "'" ++ path ++ "' row " ++ toString row

def chain : LoadError → List String
  | notNamedPath argument => ["expected NAME:FILE, got '" ++ argument ++ "'"]
  | unreadable path cause => ["failed to read '" ++ path ++ "'", cause.message]
  | keyValue path cause => ("in '" ++ path ++ "'") :: cause.chain
  | cannotOpen path cause => ["failed to open '" ++ path ++ "'", cause.message]
  | isDirectory => [OsError.isADirectory.message]
  | header cause => [cause.message]
  | tooFewColumns path =>
    ["'" ++ path ++ "' needs a key column and at least one series column"]
  | record path row cause => [rowText path row, cause.message]
  | badCell path row cell cause =>
    [rowText path row ++ ": bad value '" ++ cell ++ "'", cause.message]
  | data cause => [cause.message]

end LoadError

def splitNamedPath (argument : String) : Except LoadError (String × String) :=
  match Text.splitFirst? ':' argument.toList with
  | some (name, path) =>
    if name.isEmpty || path.isEmpty then .error (.notNamedPath argument)
    else .ok (String.ofList name, String.ofList path)
  | none => .error (.notNamedPath argument)

/-! ### Key-value files -/

def loadSeries (workspace : Workspace) (path : String) : Except LoadError (Series Binary64) := do
  let content ← (workspace.read path).mapError fun cause => .unreadable path (.os cause)
  let text ← (Glyph.text (Glyph.read content)).mapError fun _ => .unreadable path .notUtf8
  (KeyValue.read text).mapError (.keyValue path)

namespace Table

def addKeyValues (workspace : Workspace) (data : DataSet Binary64) :
    List (String × String) → Except LoadError (DataSet Binary64)
  | [] => .ok data
  | (name, path) :: rest => do
    let series ← loadSeries workspace path
    addKeyValues workspace (← (data.insert name series).mapError .data) rest

def ofKeyValues (workspace : Workspace) (inputs : List (String × String)) :
    Except LoadError Table :=
  (addKeyValues workspace .empty inputs).map restricted

/-! ### Comma-separated files -/

/-- Puts a cell into its column. An empty cell leaves the key out. -/
def addCell (path : String) (row : Nat) (key : String) (column : Series Binary64) (cell : String) :
    Except LoadError (Series Binary64) :=
  let text := Text.trim cell
  if text.isEmpty then .ok column
  else match Numeral.read text with
    | .ok value => .ok (column.insert key value)
    | .error cause => .error (.badCell path row text cause)

def addCells (path : String) (row : Nat) (key : String) :
    List (Series Binary64) → List String → Except LoadError (List (Series Binary64))
  | [], _ => .ok []
  | column :: columns, cells => do
    let first ← addCell path row key column (cells.head?.getD "")
    let others ← addCells path row key columns cells.tail
    pure (first :: others)

def checkRecord (expected number : Nat) (record : Csv.Record) : Except RecordError (List String) :=
  if record.fields.length ≠ expected then
    .error (.unequalLength number record.start record.fields.length expected)
  else (Csv.texts 0 record.fields).mapError (.notUtf8 number record.start)

/-- Puts records into the columns, the first of which has the given number. Rows count from 1
and the header is the first of them. -/
def addRecords (path : String) (expected number : Nat) (columns : List (Series Binary64)) :
    List Csv.Record → Except LoadError (List (Series Binary64))
  | [] => .ok columns
  | record :: records => do
    let row := number + 1
    let fields ← (checkRecord expected number record).mapError (.record path row)
    let key := Text.trim (fields.head?.getD "")
    let columns ← addCells path row key columns fields.tail
    addRecords path expected (number + 1) columns records

def ofRecords (path : String) (records : List Csv.Record) : Except LoadError Table := do
  let first := records.head?.getD ⟨[], {}⟩
  let header ← (Csv.texts 0 first.fields).mapError fun bad => .header (.notUtf8 0 first.start bad)
  if header.length < 2 then throw (.tooFewColumns path)
  let columns ←
    addRecords path header.length 1 (List.replicate header.tail.length .empty) records.tail
  let data ← (DataSet.empty.insertAll (header.tail.zip columns)).mapError .data
  pure (restricted data)

def ofCsv (workspace : Workspace) (path : String) : Except LoadError Table :=
  match workspace.open path with
  | .error cause => .error (.cannotOpen path cause)
  | .ok .directory => .error .isDirectory
  | .ok (.file content) => ofRecords path (Csv.records (Glyph.read content))

end Table

end TikzChart
