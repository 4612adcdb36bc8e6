import ChunkStore.Chunk
import ChunkStore.Cluster
import ChunkStore.Record
import ChunkStore.Text

/-!
A build job: where records come from and go to, how they are spread over reduce partitions, and
the three strategies that map, route and write them. Strategies are pure functions with a name.
-/

namespace ChunkStore

set_option autoImplicit false

/-- Maps an input record to a record of the store, drops it, or says why it cannot. -/
structure Transform where
  name : String
  apply : Bytes → Except String (Option Record)

/-- Picks the partition of a key, which must be below the number of partitions. -/
structure Partitioner where
  name : String
  partition : Bytes → UInt32 → UInt32

inductive ChunkFile
  | data
  | index
deriving DecidableEq, Repr

/-- The writes of a chunk in order, and the error that ends them unless they are complete. -/
structure Emission where
  writes : List (ChunkFile × Bytes)
  failure : Option IoError
deriving DecidableEq, Repr

namespace Emission

def complete : Emission := ⟨[], none⟩

def fail (error : IoError) : Emission := ⟨[], some error⟩

def append (earlier later : Emission) : Emission :=
  match earlier.failure with
  | some _ => earlier
  | none => ⟨earlier.writes ++ later.writes, later.failure⟩

def contents (emission : Emission) (file : ChunkFile) : Bytes :=
  (emission.writes.filter fun write => write.1 == file).flatMap (·.2)

end Emission

/-- Writes the records of one chunk, which come sorted by key. -/
structure ChunkWriter where
  name : String
  emit : List Record → Emission

structure JobSpec where
  id : String
  submittedAt : String
  input : Path
  /-- Room for intermediate output. -/
  temp : Path
  output : Path
  reduceTasks : UInt32
  /-- Chunks on every node. -/
  chunks : UInt32
  cluster : Cluster
  store : StoreDefinition
  outputReplication : UInt32
  bufferSize : Nat
  transform : Transform
  partitioner : Partitioner
  writer : ChunkWriter

namespace JobSpec

def chunkFor (job : JobSpec) (partition : UInt32) : Option ChunkId :=
  if job.chunks = 0 ∨ job.reduceTasks ≤ partition then none
  else (job.cluster.nodes[(partition / job.chunks).toNat]?).map fun node =>
    ⟨node.id, partition % job.chunks⟩

def properties (job : JobSpec) : List (String × String) :=
  [("cluster.num.nodes", toString job.cluster.size.toNat),
   ("final.output.dir", job.output.text),
   ("io.file.buffer.size", toString job.bufferSize),
   ("num.chunks", toString job.chunks.toNat),
   ("store.name", job.store.name),
   ("store.output.replication.factor", toString job.outputReplication.toNat)]

def describe (job : JobSpec) : String :=
  let path (path : Path) := Text.quoted path.text
  let name (name : String) := Text.quoted name
  let fields : List (String × String) :=
    [("id", job.id), ("submitted_at", job.submittedAt), ("input_path", path job.input),
     ("temp_path", path job.temp), ("output_path", path job.output),
     ("num_reduce_tasks", toString job.reduceTasks.toNat),
     ("num_chunks", toString job.chunks.toNat), ("store", name job.store.name),
     ("transform", name job.transform.name), ("partitioner", name job.partitioner.name),
     ("writer", name job.writer.name)]
  "JobSpec \x7b " ++ ", ".intercalate (fields.map fun (label, value) => label ++ ": " ++ value) ++
    ", .. \x7d"

end JobSpec

/-- Runs jobs. When `run` succeeds every chunk file is in place under the output. -/
structure JobEngine (m : Type → Type) where
  name : String
  run : JobSpec → ExceptT EngineError m Unit

end ChunkStore
