import TikzChart.Text.Blank
import TikzChart.Text.Glyph

/-!
Comma-separated records. A field is quoted when it holds a comma, a quote or an end of line; a
quote inside quotes is written twice. Reading is more lenient than writing: records end at a
line feed, at a carriage return or at both together, empty lines are skipped, a quote inside an
unquoted field stands for itself, and what follows a closing quote belongs to the field. A byte
order mark before the first record is no part of it.

A field is what its bytes say. The bytes of a character can stand apart in a file, with a
closing quote between them; in the field they meet and make up the character.

`Reader` is the reading automaton: it takes one glyph at a time and hands out a record when one
ends.
-/

set_option autoImplicit false

namespace TikzChart.Csv

/-! ### Writing -/

def needsQuotes (c : Char) : Bool := c == ',' || c == '"' || c == '\r' || c == '\n'

def doubleQuotes : List Char → List Char
  | [] => []
  | c :: rest => if c = '"' then '"' :: '"' :: doubleQuotes rest else c :: doubleQuotes rest

def writeField (field : List Char) : List Char :=
  if field.any needsQuotes then '"' :: doubleQuotes field ++ ['"'] else field

/-- One record and the end of its line. A record of a single empty field is written as two
quotes, for an empty line would be no record. -/
def writeRecord (fields : List (List Char)) : List Char :=
  let body := Text.joinWith [','] (fields.map writeField)
  (if body.isEmpty then ['"', '"'] else body) ++ ['\n']

/-! ### Reading -/

/-- A place in a file: lines count from 1, bytes from 0. -/
structure Spot where
  line : Nat := 1
  byte : Nat := 0
deriving DecidableEq, Repr

def Spot.after (spot : Spot) (glyph : Glyph) : Spot :=
  ⟨if glyph = .char '\n' then spot.line + 1 else spot.line, spot.byte + glyph.size⟩

structure Record where
  fields : List (List Glyph)
  start : Spot
deriving DecidableEq, Repr

inductive Mode where
  | recordStart
  | fieldStart
  | inField
  | inQuotes
  /-- After a quote inside quotes: it closes them unless another one follows. -/
  | afterQuote
  /-- After a carriage return that ended a record: a line feed belongs to the same end. -/
  | afterReturn
deriving DecidableEq, Repr

/-- The reading automaton. The field being read and the fields of the record before it are kept in
reverse. -/
structure Reader where
  mode : Mode := .recordStart
  field : List Glyph := []
  fields : List (List Glyph) := []
  start : Spot := {}
  here : Spot := {}
deriving DecidableEq, Repr

namespace Reader

def isEnd (glyph : Glyph) : Bool := glyph == .char '\n' || glyph == .char '\r'

def push (reader : Reader) (glyph : Glyph) : Reader :=
  { reader with field := glyph :: reader.field, mode := .inField }

def endField (reader : Reader) : Reader :=
  { reader with
    mode := .fieldStart
    field := []
    fields := reader.field.reverse :: reader.fields }

def record (reader : Reader) : Record :=
  ⟨(reader.field.reverse :: reader.fields).reverse, reader.start⟩

def endRecord (reader : Reader) (glyph : Glyph) : Reader :=
  { mode := if glyph = .char '\r' then .afterReturn else .recordStart
    start := reader.here
    here := reader.here }

def takePlain (reader : Reader) (glyph : Glyph) : Reader × Option Record :=
  if glyph = .char ',' then (reader.endField, none)
  else if isEnd glyph then (reader.endRecord glyph, some reader.record)
  else (reader.push glyph, none)

def takeFirst (reader : Reader) (glyph : Glyph) : Reader × Option Record :=
  if glyph = .char '"' then ({ reader with mode := .inQuotes }, none) else reader.takePlain glyph

def take (reader : Reader) (glyph : Glyph) : Reader × Option Record :=
  let reader := { reader with here := reader.here.after glyph }
  match reader.mode with
  | .recordStart =>
    if isEnd glyph then (reader, none) else reader.takeFirst glyph
  | .afterReturn =>
    if glyph = .char '\n' then ({ reader with mode := .recordStart }, none)
    else if isEnd glyph then ({ reader with mode := .recordStart }, none)
    else reader.takeFirst glyph
  | .fieldStart => reader.takeFirst glyph
  | .inField => reader.takePlain glyph
  | .inQuotes =>
    if glyph = .char '"' then ({ reader with mode := .afterQuote }, none)
    else ({ reader.push glyph with mode := .inQuotes }, none)
  | .afterQuote =>
    if glyph = .char '"' then ({ reader.push glyph with mode := .inQuotes }, none)
    else reader.takePlain glyph

def finish (reader : Reader) : List Record :=
  match reader.mode with
  | .recordStart => []
  | .afterReturn => []
  | _ => [reader.record]

def records (reader : Reader) : List Glyph → List Record
  | [] => reader.finish
  | glyph :: rest =>
    match reader.take glyph with
    | (next, some record) => record :: next.records rest
    | (next, none) => next.records rest

end Reader

def records (glyphs : List Glyph) : List Record :=
  match glyphs with
  | .char '\uFEFF' :: rest =>
    ({ here := { byte := Char.utf8Size '\uFEFF' } : Reader }).records rest
  | _ => ({} : Reader).records glyphs

/-- The first field that is not text, counted from 0, and the number of bytes before its first stray
glyph. -/
structure BadField where
  field : Nat
  byte : Nat
deriving DecidableEq, Repr

def texts (number : Nat) : List (List Glyph) → Except BadField (List String)
  | [] => .ok []
  | field :: fields =>
    match Glyph.text (Glyph.read (Glyph.encode field)) with
    | .error byte => .error ⟨number, byte⟩
    | .ok chars =>
      match texts (number + 1) fields with
      | .error bad => .error bad
      | .ok rest => .ok (String.ofList chars :: rest)

end TikzChart.Csv
