import ChunkStore.Checksum.Manifest
import ChunkStore.Job.Strategies
import ChunkStore.Plan
import ChunkStore.Scan

/-!
Building a store from end to end, stage by stage: the output must be absent, the temp path is
cleared, the input is sized, chunks are planned, the engine runs the job, and the node directories
are checksummed if asked for. The first stage that fails ends the build; nothing is retried and
nothing is cleaned up.
-/

namespace ChunkStore

set_option autoImplicit false

structure Builder where
  cluster : Cluster
  store : StoreDefinition
  config : BuildConfig
  transform : Transform := .tabSeparated
  partitioner : Partitioner := .md5
  writer : ChunkWriter := .binary

structure Submission where
  id : String
  submittedAt : String
deriving DecidableEq, Repr

structure BuildSummary where
  jobId : String
  inputBytes : Nat
  plan : ChunkPlan
  /-- One digest for every node directory, or none when checksums are off. -/
  checksums : List Checksum.NodeDigest
deriving DecidableEq, Repr

namespace Builder

/-- The plan for an input of so many bytes. The store says how often its records are held. -/
def plan (builder : Builder) (inputBytes : Nat) : ChunkPlan :=
  .compute (UInt64.ofNat inputBytes) builder.store.replication builder.cluster.size
    (UInt64.ofNat builder.config.chunkSize)

/-- The job that carries out a plan. The configuration says how often its files are kept. -/
def job (builder : Builder) (submission : Submission) (plan : ChunkPlan) : JobSpec where
  id := submission.id
  submittedAt := submission.submittedAt
  input := builder.config.input
  temp := builder.config.temp
  output := builder.config.output
  reduceTasks := plan.parallelism
  chunks := plan.chunksPerNode
  cluster := builder.cluster
  store := builder.store
  outputReplication := builder.config.replication
  bufferSize := builder.config.checksum.bufferSize
  transform := builder.transform
  partitioner := builder.partitioner
  writer := builder.writer

variable {m : Type → Type} [Monad m] {Reader Writer : Type}

def requireAbsent (files : FileSystem m Reader Writer) (output : Path) :
    ExceptT BuildError m Unit := do
  let present ← (files.exists? output).adapt fun error =>
    .precondition output s!"could not check output path: {error.text}"
  if present then throw (.precondition output "output directory already exists")

def checksums (files : FileSystem m Reader Writer) (config : BuildConfig) :
    ExceptT ChecksumError m (List Checksum.NodeDigest) :=
  if config.checksumEnabled then Checksum.aggregateAll files config.checksum config.output
  else pure []

def build (files : FileSystem m Reader Writer) (engine : JobEngine m) (builder : Builder)
    (submission : Submission) : ExceptT BuildError m BuildSummary := do
  let config := builder.config
  requireAbsent files config.output
  let _ ← (files.deleteTree config.temp).adapt fun error =>
    .failed (.clearTemp config.temp error)
  let inputBytes ← (Scan.size files config.input).adapt fun error =>
    .failed (.sizeScan config.input error)
  let plan := builder.plan inputBytes
  let job := builder.job submission plan
  (engine.run job).adapt fun error => .failed (.engine job.id error)
  let checksums ← (checksums files config).adapt fun error => .failed (.checksum error)
  pure { jobId := job.id, inputBytes, plan, checksums }

end Builder

end ChunkStore
