import ChunkStore.CommandLine
import ChunkStore.Console
import ChunkStore.Job.Local

/-!
What each command does on a file system. A command answers with an exit code, the text it prints,
and one line on what went wrong, which names the step that failed and then every cause below it.
-/

namespace ChunkStore.Program

set_option autoImplicit false

open CommandLine

structure Failure where
  step : String
  causes : List String
deriving DecidableEq, Repr

def Failure.line (failure : Failure) : String :=
  "Error: " ++ ": ".intercalate (failure.step :: failure.causes)

structure Report where
  exitCode : UInt32
  text : String
  failure : Option Failure
deriving DecidableEq, Repr

namespace Report

def success (text : String) : Report := ⟨0, text, none⟩

/-- What was printed before the failure stays printed. -/
def failed (text : String) (failure : Failure) : Report := ⟨1, text, some failure⟩

def ofResult : Except Failure String → Report
  | .ok text => success text
  | .error failure => failed "" failure

end Report

/-- What a command takes from its surroundings besides files: an id and a time for a new job, a
clock that counts milliseconds, and whether its text may be coloured. -/
structure Surroundings (m : Type → Type) where
  submission : m Submission
  clock : m Nat
  colors : Bool

variable {m : Type → Type} [Monad m] {Reader Writer α : Type}

/-! Settings -/

def inStep (step : String) (result : Except ConfigError α) : Except Failure α :=
  result.mapError fun error => ⟨step, [error.message]⟩

def settings (result : Except ConfigError α) : Except Failure α :=
  inStep "Invalid configuration" result

def topology (files : FileSystem m Reader Writer) (cluster store : Path) :
    ExceptT Failure m (Cluster × StoreDefinition) := do
  let cluster ← (Cluster.load files cluster).adapt fun error =>
    ⟨"Failed to load cluster", [error.message]⟩
  let store ← (StoreDefinition.load files store).adapt fun error =>
    ⟨"Failed to load store", [error.message]⟩
  pure (cluster, store)

def chunkSize (text : String) : Except ConfigError Nat := do
  validateChunkSize (← parseSize text)

/-! Build -/

def buildArguments (request : BuildRequest) (store : StoreDefinition) : BuildArguments where
  input := request.input
  temp := request.temp
  output := request.output
  chunkSize := request.chunkSize
  replication := request.replication.getD store.replication
  checksum := request.checksum
  checksumArguments := request.checksumArguments

def builder (files : FileSystem m Reader Writer) (request : BuildRequest) :
    ExceptT Failure m Builder := do
  let (cluster, store) ← topology files request.cluster request.store
  let config ← ExceptT.mk (pure (settings (buildArguments request store).config))
  pure { cluster, store, config }

def header (colors : Bool) (builder : Builder) : String :=
  Console.header colors "build"
    [("Store", builder.store.name),
     ("Nodes", toString builder.cluster.size.toNat),
     ("Input", builder.config.input.text),
     ("Output", builder.config.output.text),
     ("Chunk Size", Size.render builder.config.chunkSize)]

def summary (colors : Bool) (builder : Builder) (milliseconds : Nat) (summary : BuildSummary) :
    String :=
  Console.buildSummary colors
    { jobId := summary.jobId
      inputBytes := summary.inputBytes
      plan := summary.plan
      milliseconds
      output := builder.config.output
      checksums := summary.checksums.map .ofDigest }

def unlessQuiet (quiet : Bool) (text : String) : String := if quiet then "" else text

def runBuilder (surroundings : Surroundings m) (files : FileSystem m Reader Writer)
    (quiet : Bool) (builder : Builder) : m Report := do
  let front := unlessQuiet quiet (header surroundings.colors builder)
  let submission ← surroundings.submission
  let started ← surroundings.clock
  match ← (builder.build files (Local.engine files) submission).run with
  | .error error => pure (.failed front ⟨"Build failed", error.trail⟩)
  | .ok result =>
    let finished ← surroundings.clock
    let back := summary surroundings.colors builder (finished - started) result
    pure (.success (front ++ unlessQuiet quiet back))

def build (surroundings : Surroundings m) (files : FileSystem m Reader Writer) (quiet : Bool)
    (request : BuildRequest) : m Report := do
  match ← (builder files request).run with
  | .error failure => pure (.failed "" failure)
  | .ok builder => runBuilder surroundings files quiet builder

/-! Plan -/

structure PlanReport where
  store : String
  replication : UInt32
  nodes : UInt32
  inputBytes : Nat
  chunkSize : Nat
  plan : ChunkPlan
deriving DecidableEq, Repr

namespace PlanReport

def json (report : PlanReport) : String :=
  Json.objectLines
    [("store", Json.quote report.store),
     ("replication_factor", toString report.replication.toNat),
     ("num_nodes", toString report.nodes.toNat),
     ("input_bytes", toString report.inputBytes),
     ("chunk_size_bytes", toString report.chunkSize),
     ("num_chunks_per_node", toString report.plan.chunksPerNode.toNat),
     ("total_parallelism", toString report.plan.parallelism.toNat)]

def render (colors : Bool) (format : PlanFormat) (report : PlanReport) : String :=
  match format with
  | .text => Console.plan colors report.inputBytes report.nodes.toNat report.chunkSize report.plan
  | .json => report.json ++ "\n"

end PlanReport

def planReport (files : FileSystem m Reader Writer) (request : PlanRequest) :
    ExceptT Failure m PlanReport := do
  let (cluster, store) ← topology files request.cluster request.store
  let chunkSize ← ExceptT.mk (pure (settings (chunkSize request.chunkSize)))
  let inputBytes ← (Scan.size files request.input).adapt fun error =>
    ⟨s!"Failed to size input '{request.input.text}'", [error.text]⟩
  pure
    { store := store.name
      replication := store.replication
      nodes := cluster.size
      inputBytes
      chunkSize
      plan := .compute (UInt64.ofNat inputBytes) store.replication cluster.size
        (UInt64.ofNat chunkSize) }

/-- The text of a plan, also when the program is to be quiet. -/
def plan (colors : Bool) (files : FileSystem m Reader Writer) (request : PlanRequest) :
    m Report := do
  let result ← (planReport files request).run
  pure (.ofResult (result.map (·.render colors request.format)))

/-! Manifests -/

def checksumOptions (arguments : ChecksumArguments) : ExceptT Failure m ChecksumOptions :=
  ExceptT.mk (pure (settings arguments.options))

def checksum (colors : Bool) (files : FileSystem m Reader Writer) (quiet : Bool)
    (request : ManifestRequest) : m Report := do
  let body : ExceptT Failure m (List Checksum.NodeDigest) := do
    let options ← checksumOptions request.checksumArguments
    (Checksum.aggregateAll files options request.output).adapt fun error =>
      ⟨"Checksum failed", error.trail⟩
  let result ← body.run
  pure <| .ofResult <| result.map fun nodes =>
    unlessQuiet quiet (Console.checksums colors (nodes.map .ofDigest))

/-- The report on a verification fails if any directory does not match its manifest. What is printed
counts the failures itself; a quiet program counts them in the results. -/
def verified (colors quiet : Bool) (results : List (Path × Checksum.Verification)) : Report :=
  let (text, failed) :=
    if quiet then ("", Console.failures results) else Console.printVerification colors results
  { exitCode := if 0 < failed then 1 else 0, text, failure := none }

def verify (colors : Bool) (files : FileSystem m Reader Writer) (quiet : Bool)
    (request : ManifestRequest) : m Report := do
  let body : ExceptT Failure m (List (Path × Checksum.Verification)) := do
    let options ← checksumOptions request.checksumArguments
    (Checksum.verifyAll files options request.output).adapt fun error =>
      ⟨"Verification failed", error.trail⟩
  match ← body.run with
  | .error failure => pure (.failed "" failure)
  | .ok results => pure (verified colors quiet results)

def runCommand (surroundings : Surroundings m) (files : FileSystem m Reader Writer)
    (invocation : Invocation) : m Report :=
  match invocation.command with
  | .build request => build surroundings files invocation.quiet request
  | .plan request => plan surroundings.colors files request
  | .checksum request => checksum surroundings.colors files invocation.quiet request
  | .verify request => verify surroundings.colors files invocation.quiet request

def helpText : String :=
  Console.ofLines
    ["Build partitioned, replicated read-only key-value stores", "",
     s!"Usage: {Console.programName} [-q] [-v] COMMAND", "",
     "Commands:",
     "  build --cluster FILE --store FILE --input PATH --temp DIR --output DIR",
     "        [--chunk-size SIZE] [--replication NUM] [--checksum]",
     "        [--sorted-checksum] [--buffer-size SIZE]",
     "  plan --cluster FILE --store FILE --input PATH [--chunk-size SIZE]",
     "        [--format text|json]",
     "  checksum OUTPUT_DIR [--sorted-checksum] [--buffer-size SIZE]",
     "  verify OUTPUT_DIR [--sorted-checksum] [--buffer-size SIZE]"]

/-- The report on a command line that names no command to run. A misused one has an exit code of
its own. -/
def ofEnding : Ending → Report
  | .help => .success helpText
  | .version => .success Console.versionLine
  | .misuse error => ⟨2, "", some ⟨error.message, []⟩⟩

def run (surroundings : Surroundings m) (files : FileSystem m Reader Writer)
    (arguments : List String) : m Report :=
  match CommandLine.read arguments with
  | .error ending => pure (ofEnding ending)
  | .ok invocation => runCommand surroundings files invocation

end ChunkStore.Program
