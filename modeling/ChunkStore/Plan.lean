import ChunkStore.Json.Reader
import ChunkStore.Json.Writer

/-!
How many chunks every node holds. About replication times input bytes come to lie on the cluster;
divided by the bytes that all nodes hold in one chunk each, this gives the chunks of a node,
rounded down but at least one, and so few that all chunks together still have 32-bit numbers.
-/

namespace ChunkStore

set_option autoImplicit false

/-- Chunks on every node, and chunks on all of them, each written by one reduce partition. -/
structure ChunkPlan where
  chunksPerNode : UInt32
  parallelism : UInt32
deriving DecidableEq, Repr

namespace ChunkPlan

def nodeFor (plan : ChunkPlan) (partition : UInt32) : UInt32 := partition / plan.chunksPerNode

def chunkFor (plan : ChunkPlan) (partition : UInt32) : UInt32 := partition % plan.chunksPerNode

/-- The plan for an input of `total` bytes, in words of 128, 64 and 32 bits. -/
def compute (total : UInt64) (replication nodes : UInt32) (chunkSize : UInt64) : ChunkPlan :=
  let replicated := BitVec.ofNat 128 replication.toNat * BitVec.ofNat 128 total.toNat
  let layer := BitVec.ofNat 128 nodes.toNat * BitVec.ofNat 128 (max chunkSize.toNat 1)
  let wanted := max (replicated / if layer = 0 then 1 else layer).toNat 1
  let most := (UInt32.ofNat (UInt32.size - 1) / if nodes = 0 then 1 else nodes).toNat
  let chunks := UInt32.ofNat (min wanted most)
  ⟨chunks, nodes * chunks⟩

def read : Json.Reader ChunkPlan :=
  Json.record "ChunkPlan" "num_chunks_per_node" "total_parallelism" Json.word32 Json.word32 none
    ChunkPlan.mk

def json (plan : ChunkPlan) : String :=
  Json.objectText
    [("num_chunks_per_node", toString plan.chunksPerNode.toNat),
     ("total_parallelism", toString plan.parallelism.toNat)]

end ChunkPlan

end ChunkStore
