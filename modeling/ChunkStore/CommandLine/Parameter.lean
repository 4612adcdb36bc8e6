/-!
The parameters of a command line and how they are read from left to right. A value given apart
from its option is checked only when the next parameter is met, so an argument that is unknown is
reported before a bad value in front of it.
-/

namespace ChunkStore.CommandLine

set_option autoImplicit false

inductive UsageError
  | nothingAsked
  | missingCommand
  | unknownCommand (name : String)
  | unknownArgument (argument : String)
  | repeatedArgument (name : String)
  | missingArgument (name : String)
  | missingValue (name : String)
  | unexpectedValue (name : String)
  | refusedValue (name value : String)
  | unreadableNumber (name value : String)
deriving DecidableEq, Repr

def UsageError.message : UsageError → String
  | nothingAsked => "a command is required"
  | missingCommand => "a command is required after the options"
  | unknownCommand name => s!"there is no command '{name}'"
  | unknownArgument argument => s!"unexpected argument '{argument}'"
  | repeatedArgument name => s!"the argument '{name}' cannot be given twice"
  | missingArgument name => s!"the argument '{name}' is required"
  | missingValue name => s!"the argument '{name}' needs a value"
  | unexpectedValue name => s!"the argument '{name}' takes no value"
  | refusedValue name value => s!"'{value}' is no choice for '{name}'"
  | unreadableNumber name value => s!"'{value}' is no number for '{name}'"

inductive Ending
  | help
  | version
  | misuse (error : UsageError)
deriving DecidableEq, Repr

inductive ValueForm
  /-- Any text that is not empty. -/
  | path
  | text
  /-- A whole number of 32 bits, with or without a sign. -/
  | word
  | oneOf (choices : List String)
deriving DecidableEq, Repr

inductive Role
  | switch
  | value (form : ValueForm)
  | help
  | version
deriving DecidableEq, Repr

structure Parameter where
  name : String
  letter : Option Char
  role : Role
deriving DecidableEq, Repr

inductive Value
  | on
  | text (text : String)
  | word (number : UInt32)
deriving DecidableEq, Repr

def natural? (digits : List Char) : Option Nat :=
  if digits ≠ [] ∧ digits.all Char.isDigit then
    some (digits.foldl (fun value digit => value * 10 + (digit.toNat - 48)) 0)
  else none

/-- A whole number of 32 bits; a minus sign is allowed in front of zero. -/
def word? (text : String) : Option UInt32 :=
  let (negative, digits) := match text.toList with
    | '-' :: digits => (true, digits)
    | '+' :: digits => (false, digits)
    | digits => (false, digits)
  match natural? digits with
  | none => none
  | some number =>
      if UInt32.size ≤ number ∨ (negative ∧ number ≠ 0) then none else some (UInt32.ofNat number)

def ValueForm.read (form : ValueForm) (name text : String) : Except UsageError Value :=
  match form with
  | .path => if text = "" then .error (.missingValue name) else .ok (.text text)
  | .text => .ok (.text text)
  | .word =>
    match word? text with
    | some number => .ok (.word number)
    | none => .error (.unreadableNumber name text)
  | .oneOf choices =>
      if text ∈ choices then .ok (.text text) else .error (.refusedValue name text)

inductive Token
  /-- Two hyphens alone; nothing behind them is an option. -/
  | separator
  | long (name : String) (value? : Option String)
  | letters (letters : List Char)
  | word (text : String)
deriving DecidableEq, Repr

/-- A hyphen alone is a word like any other. -/
def Token.ofText (text : String) : Token :=
  match text.toList with
  | ['-', '-'] => .separator
  | '-' :: '-' :: rest =>
    match rest.span (· != '=') with
    | (name, []) => .long (String.ofList name) none
    | (name, _ :: value) => .long (String.ofList name) (some (String.ofList value))
  | '-' :: letter :: rest => .letters (letter :: rest)
  | _ => .word text

/-- A parameter whose value is still to come or still to be checked. -/
structure Waiting where
  parameter : Parameter
  value? : Option String
deriving DecidableEq, Repr

structure Progress where
  given : List (String × Value)
  operands : List Parameter
  waiting : Option Waiting
deriving DecidableEq, Repr

namespace Progress

def start (operands : List Parameter) : Progress := ⟨[], operands, none⟩

def isOn (progress : Progress) (name : String) : Bool := (progress.given.lookup name).isSome

def add (progress : Progress) (parameter : Parameter) (value : Value) : Except Ending Progress :=
  if progress.isOn parameter.name then .error (.misuse (.repeatedArgument parameter.name))
  else .ok { progress with given := progress.given ++ [(parameter.name, value)] }

/-- Takes a value. That a parameter is given twice is reported before a bad value. -/
def addText (progress : Progress) (parameter : Parameter) (text : String) :
    Except Ending Progress :=
  match parameter.role with
  | .value form =>
    if progress.isOn parameter.name then .error (.misuse (.repeatedArgument parameter.name))
    else match form.read parameter.name text with
      | .ok value => progress.add parameter value
      | .error error => .error (.misuse error)
  | _ => .error (.misuse (.unexpectedValue parameter.name))

def settle (progress : Progress) : Except Ending Progress :=
  match progress.waiting with
  | none => .ok progress
  | some ⟨parameter, none⟩ => .error (.misuse (.missingValue parameter.name))
  | some ⟨parameter, some text⟩ => { progress with waiting := none }.addText parameter text

def meet (progress : Progress) (parameter : Parameter) : Except Ending Progress := do
  let settled ← progress.settle
  match parameter.role with
  | .switch => settled.add parameter .on
  | .value _ => pure { settled with waiting := some ⟨parameter, none⟩ }
  | .help => throw .help
  | .version => throw .version

def takeLong (parameters : List Parameter) (name : String) (value? : Option String)
    (progress : Progress) : Except Ending Progress :=
  match parameters.find? (·.name == name) with
  | none => .error (.misuse (.unknownArgument ("--" ++ name)))
  | some parameter =>
    match parameter.role, value? with
    | .value _, some text => do (← progress.settle).addText parameter text
    | _, none => progress.meet parameter
    | _, some _ => .error (.misuse (.unexpectedValue parameter.name))

/-- Letters behind one hyphen; what follows the letter of an option is its value. -/
def takeLetters (parameters : List Parameter) : List Char → Progress → Except Ending Progress
  | [], progress => .ok progress
  | letter :: rest, progress =>
    match parameters.find? (·.letter == some letter) with
    | none => .error (.misuse (.unknownArgument s!"-{letter}"))
    | some parameter =>
      match parameter.role, rest with
      | .value _, '=' :: text => do (← progress.settle).addText parameter (String.ofList text)
      | .value _, char :: text => do
          (← progress.settle).addText parameter (String.ofList (char :: text))
      | _, _ => do takeLetters parameters rest (← progress.meet parameter)

def takeOperand (text : String) (progress : Progress) : Except Ending Progress :=
  match progress.operands with
  | [] => .error (.misuse (.unknownArgument text))
  | operand :: operands => do
      let settled ← progress.settle
      pure { settled with operands, waiting := some ⟨operand, some text⟩ }

def takeWord (text : String) (progress : Progress) : Except Ending Progress :=
  match progress.waiting with
  | some ⟨parameter, none⟩ => .ok { progress with waiting := some ⟨parameter, some text⟩ }
  | _ => progress.takeOperand text

/-- Reads arguments to their end; every word behind a separator is an operand. -/
def readAll (parameters : List Parameter) :
    List String → Bool → Progress → Except Ending Progress
  | [], _, progress => progress.settle
  | text :: rest, true, progress => do
      readAll parameters rest true (← progress.takeOperand text)
  | text :: rest, false, progress =>
    match Token.ofText text with
    | .separator => readAll parameters rest true progress
    | .long name value? => do
        readAll parameters rest false (← progress.takeLong parameters name value?)
    | .letters letters => do
        readAll parameters rest false (← progress.takeLetters parameters letters)
    | .word text => do readAll parameters rest false (← progress.takeWord text)

/-! What was given -/

def text? (progress : Progress) (name : String) : Option String :=
  match progress.given.lookup name with
  | some (.text text) => some text
  | _ => none

def word? (progress : Progress) (name : String) : Option UInt32 :=
  match progress.given.lookup name with
  | some (.word number) => some number
  | _ => none

def required (progress : Progress) (name : String) : Except Ending String :=
  match progress.text? name with
  | some text => .ok text
  | none => .error (.misuse (.missingArgument name))

end Progress

end ChunkStore.CommandLine
