import ChunkStore.Path

/-!
Chunks and where they are kept: every node has a directory named for its id under the output, and
every chunk of it a data file and an index file there, named for the chunk's number.
-/

namespace ChunkStore

set_option autoImplicit false

structure ChunkId where
  node : UInt32
  index : UInt32
deriving DecidableEq, Repr

def nodeDirectory (output : Path) (node : UInt32) : Path := output.join s!"node-{node.toNat}"

namespace ChunkId

def dataName (chunk : ChunkId) : String := s!"{chunk.index.toNat}.data"

def indexName (chunk : ChunkId) : String := s!"{chunk.index.toNat}.index"

def dataPath (chunk : ChunkId) (output : Path) : Path :=
  (nodeDirectory output chunk.node).join chunk.dataName

def indexPath (chunk : ChunkId) (output : Path) : Path :=
  (nodeDirectory output chunk.node).join chunk.indexName

def text (chunk : ChunkId) : String := s!"node-{chunk.node.toNat}/{chunk.index.toNat}"

def le (left right : ChunkId) : Bool :=
  left.node < right.node || (left.node == right.node && left.index ≤ right.index)

def sortedOnce (chunks : List ChunkId) : List ChunkId := (chunks.mergeSort le).eraseReps

end ChunkId

end ChunkStore
