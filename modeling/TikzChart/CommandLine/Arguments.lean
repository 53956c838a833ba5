import TikzChart.CommandLine.Options

/-!
Reading the arguments of a run. An option is written with two dashes and its name, or with one
dash and its letter; letters of flags can be run together. A value follows an equals sign,
stands in the next argument, or is attached to a letter. An argument that begins with a dash is
the value of the option before it only if that option allows it.

A value in an argument of its own is read when the next option is met, or at the end; so an argument
that is no option at all is reported before an unfit value just in front of it.
-/

set_option autoImplicit false

namespace TikzChart

inductive Argument where
  | escape
  | long (name : String) (attached : Option String)
  | short (letters : List Char)
  | plain (text : String)
deriving DecidableEq, Repr

/-- The form of an argument. A single dash is plain. -/
def Argument.ofText (text : String) : Argument :=
  match text.toList with
  | ['-', '-'] => .escape
  | '-' :: '-' :: body =>
    match Text.splitFirst? '=' body with
    | some (name, value) => .long (String.ofList name) (some (String.ofList value))
    | none => .long (String.ofList body) none
  | '-' :: letter :: letters => .short (letter :: letters)
  | _ => .plain text

/-- The arguments read so far: the options, which of them were given, and the option that waits for
its value or whose value has not been read yet. -/
structure Parsing where
  options : Options := {}
  given : List Switch := []
  waiting : Option (Switch × Option String) := none
deriving DecidableEq, Repr

namespace Parsing

def note (parsing : Parsing) (switch : Switch) : Except UsageError Parsing :=
  if parsing.given.contains switch && !switch.isRepeatable then .error .argumentConflict
  else .ok { parsing with given := switch :: parsing.given }

def store (parsing : Parsing) (switch : Switch) (value : String) : Except UsageError Parsing := do
  let parsing ← parsing.note switch
  pure { parsing with options := ← switch.set parsing.options value }

def settle (parsing : Parsing) : Except UsageError Parsing :=
  match parsing.waiting with
  | none => .ok parsing
  | some (_, none) => .error .invalidValue
  | some (switch, some value) => { parsing with waiting := none }.store switch value

def takeFlag (parsing : Parsing) (switch : Switch) : Except UsageError Parsing := do
  let parsing ← (← parsing.settle).note switch
  pure { parsing with options := ← switch.raise parsing.options }

def takeValue (parsing : Parsing) (switch : Switch) (value : Option String) :
    Except UsageError Parsing := do
  let parsing ← parsing.settle
  match value with
  | some value => parsing.store switch value
  | none => pure { parsing with waiting := some (switch, none) }

def takeLong (parsing : Parsing) (name : String) (attached : Option String) :
    Except UsageError Parsing :=
  match Switch.ofName? name with
  | none => .error .unknownArgument
  | some switch =>
    if switch.isFlag then
      if attached.isSome then .error .tooManyValues else parsing.takeFlag switch
    else parsing.takeValue switch attached

/-- Takes letters that are run together; what follows the letter of an option is its value, after an
equals sign or without one. -/
def takeShort (parsing : Parsing) : List Char → Except UsageError Parsing
  | [] => .ok parsing
  | letter :: letters =>
    match Switch.ofLetter? letter with
    | none => .error .unknownArgument
    | some switch =>
      if switch.isFlag then
        match parsing.takeFlag switch with
        | .ok parsing => parsing.takeShort letters
        | .error cause => .error cause
      else
        let value := match letters with
          | [] => none
          | '=' :: value => some (String.ofList value)
          | value => some (String.ofList value)
        parsing.takeValue switch value

def awaiting? (parsing : Parsing) : Option Switch :=
  match parsing.waiting with
  | some (switch, none) => some switch
  | _ => none

def takeOption (parsing : Parsing) : Argument → Except UsageError Parsing
  | .long name attached => parsing.takeLong name attached
  | .short letters => parsing.takeShort letters
  | _ => .error .unknownArgument

def take (parsing : Parsing) (text : String) : Except UsageError Parsing :=
  let asValue (switch : Switch) : Parsing := { parsing with waiting := some (switch, some text) }
  match parsing.awaiting?, Argument.ofText text with
  | some switch, .plain _ => .ok (asValue switch)
  | some switch, argument =>
    if switch.takesDashes then .ok (asValue switch) else parsing.takeOption argument
  | none, argument => parsing.takeOption argument

def isEscape (parsing : Parsing) (text : String) : Bool :=
  Argument.ofText text == .escape && !(parsing.awaiting?.any Switch.takesDashes)

def finish (parsing : Parsing) : Except UsageError Options := do
  let parsing ← parsing.settle
  if parsing.given.contains .table && parsing.given.contains .compare then throw .argumentConflict
  pure parsing.options

def takeAll (parsing : Parsing) : List String → Except UsageError Options
  | [] => parsing.finish
  | text :: rest =>
    if parsing.isEscape text then
      if rest.isEmpty then parsing.finish else .error .unknownArgument
    else
      match parsing.take text with
      | .ok next => next.takeAll rest
      | .error cause => .error cause

end Parsing

def Options.parse (arguments : List String) : Except UsageError Options :=
  ({} : Parsing).takeAll arguments

end TikzChart
