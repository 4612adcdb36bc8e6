import ChunkStore.CommandLine.Parameter
import ChunkStore.Config

/-!
The command line: a command with its arguments, and two switches that may stand before or behind
it. Reading either gives a command to run or says why there is none.
-/

namespace ChunkStore.CommandLine

set_option autoImplicit false

inductive PlanFormat
  | text
  | json
deriving DecidableEq, Repr

/-- What a build is asked for. Without a replication the store's own is taken. -/
structure BuildRequest where
  cluster : Path
  store : Path
  input : Path
  temp : Path
  output : Path
  chunkSize : String
  replication : Option UInt32
  checksum : Bool
  checksumArguments : ChecksumArguments
deriving DecidableEq, Repr

structure PlanRequest where
  cluster : Path
  store : Path
  input : Path
  chunkSize : String
  format : PlanFormat
deriving DecidableEq, Repr

structure ManifestRequest where
  output : Path
  checksumArguments : ChecksumArguments
deriving DecidableEq, Repr

inductive Command
  | build (request : BuildRequest)
  | plan (request : PlanRequest)
  | checksum (request : ManifestRequest)
  | verify (request : ManifestRequest)
deriving DecidableEq, Repr

structure Invocation where
  quiet : Bool
  verbose : Bool
  command : Command
deriving DecidableEq, Repr

/-! Parameters -/

def option (name : String) (form : ValueForm) : Parameter := ⟨name, none, .value form⟩

def switch (name : String) : Parameter := ⟨name, none, .switch⟩

def helpSwitch : Parameter := ⟨"help", some 'h', .help⟩

def versionSwitch : Parameter := ⟨"version", some 'V', .version⟩

def sharedParameters : List Parameter :=
  [⟨"quiet", some 'q', .switch⟩, ⟨"verbose", some 'v', .switch⟩, helpSwitch]

def checksumParameters : List Parameter := [switch "sorted-checksum", option "buffer-size" .text]

def planInputs : List Parameter :=
  [option "cluster" .path, option "store" .path, option "input" .path, option "chunk-size" .text]

def outputOperand : Parameter := option "OUTPUT_DIR" .path

/-! Commands -/

def defaultChunkSizeText : String := "1GB"

def checksumArguments (progress : Progress) : ChecksumArguments :=
  { sorted := progress.isOn "sorted-checksum"
    bufferSize := (progress.text? "buffer-size").getD "64KB" }

def requiredPath (progress : Progress) (name : String) : Except Ending Path :=
  (progress.required name).map Path.ofText

def chunkSizeText (progress : Progress) : String :=
  (progress.text? "chunk-size").getD defaultChunkSizeText

def readBuild (progress : Progress) : Except Ending Command := do
  return .build
    { cluster := ← requiredPath progress "cluster"
      store := ← requiredPath progress "store"
      input := ← requiredPath progress "input"
      temp := ← requiredPath progress "temp"
      output := ← requiredPath progress "output"
      chunkSize := chunkSizeText progress
      replication := progress.word? "replication"
      checksum := progress.isOn "checksum"
      checksumArguments := checksumArguments progress }

def readPlan (progress : Progress) : Except Ending Command := do
  return .plan
    { cluster := ← requiredPath progress "cluster"
      store := ← requiredPath progress "store"
      input := ← requiredPath progress "input"
      chunkSize := chunkSizeText progress
      format := if progress.text? "format" = some "json" then .json else .text }

def readManifest (progress : Progress) : Except Ending ManifestRequest := do
  return { output := ← requiredPath progress outputOperand.name
           checksumArguments := checksumArguments progress }

structure CommandForm where
  name : String
  parameters : List Parameter
  operands : List Parameter
  make : Progress → Except Ending Command

def buildForm : CommandForm where
  name := "build"
  parameters := planInputs ++
    [option "temp" .path, ⟨"output", some 'o', .value .path⟩, option "replication" .word,
     switch "checksum"] ++ checksumParameters
  operands := []
  make := readBuild

def planForm : CommandForm where
  name := "plan"
  parameters := planInputs ++ [option "format" (.oneOf ["text", "json"])]
  operands := []
  make := readPlan

def checksumForm : CommandForm where
  name := "checksum"
  parameters := checksumParameters
  operands := [outputOperand]
  make progress := (readManifest progress).map .checksum

def verifyForm : CommandForm where
  name := "verify"
  parameters := checksumParameters
  operands := [outputOperand]
  make progress := (readManifest progress).map .verify

def commandForms : List CommandForm := [buildForm, planForm, checksumForm, verifyForm]

def commandForm? (name : String) : Option CommandForm :=
  commandForms.find? fun form => form.name == name

def helpName : String := "help"

def isCommandName (name : String) : Bool := name == helpName || (commandForm? name).isSome

/-- Help for the program or for one command; no command has commands of its own. -/
def readHelp : List String → Ending
  | [] => .help
  | name :: rest =>
      if isCommandName name then
        match rest with
        | [] => .help
        | below :: _ => .misuse (.unknownCommand below)
      else .misuse (.unknownCommand name)

/-- Reads the arguments of a command. A switch counts wherever it stands. -/
def readCommand (form : CommandForm) (before : Progress) (arguments : List String) :
    Except Ending Invocation := do
  let progress ← Progress.readAll (sharedParameters ++ form.parameters) arguments false
    (.start form.operands)
  pure
    { command := ← form.make progress
      quiet := before.isOn "quiet" || progress.isOn "quiet"
      verbose := before.isOn "verbose" || progress.isOn "verbose" }

def readCommandWord (progress : Progress) (name : String) (arguments : List String) :
    Except Ending Invocation :=
  if name = helpName then .error (readHelp arguments)
  else match commandForm? name with
    | some form => readCommand form progress arguments
    | none => .error (.misuse (.unknownCommand name))

def withoutCommand (progress : Progress) : UsageError :=
  if progress.given.isEmpty then .nothingAsked else .missingCommand

/-- Reads what stands in front of the command, and from there on the command. A command behind a
separator is an unexpected argument. -/
def readFront : List String → Progress → Except Ending Invocation
  | [], progress => .error (.misuse (withoutCommand progress))
  | text :: rest, progress =>
    match Token.ofText text with
    | .word name => readCommandWord progress name rest
    | .long name value? => do
        readFront rest
          (← progress.takeLong (sharedParameters ++ [versionSwitch]) name value?)
    | .letters letters => do
        readFront rest (← progress.takeLetters (sharedParameters ++ [versionSwitch]) letters)
    | .separator =>
      match rest with
      | [] => .error (.misuse (withoutCommand progress))
      | name :: _ =>
          .error (.misuse (if isCommandName name then .unknownArgument name
            else .unknownCommand name))

def read (arguments : List String) : Except Ending Invocation :=
  readFront arguments (.start [])

end ChunkStore.CommandLine
