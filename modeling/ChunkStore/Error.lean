import ChunkStore.IoError
import ChunkStore.Path

/-!
The errors of a build, by cause. Every error has a message, and the error below it in the chain
of causes keeps its own: a message names the path or value involved and ends with its cause.
-/

namespace ChunkStore

set_option autoImplicit false

inductive ConfigError
  | chunkSize (size least most : Nat)
  | replicationFactor (factor : Nat)
  | emptyCluster (name : String)
  | unreadableSize (reason : String)
  | bufferSize (size most : Nat)
  | metadata (path : Path) (reason : String)
deriving DecidableEq, Repr

def ConfigError.message : ConfigError → String
  | .chunkSize size least most =>
      s!"Invalid chunk size {size}: chunk size must be in the range {least}...{most}"
  | .replicationFactor factor => s!"Invalid replication factor {factor}: must be at least 1"
  | .emptyCluster name => s!"Cluster '{name}' has no nodes"
  | .unreadableSize reason => s!"Invalid size: {reason}"
  | .bufferSize size most =>
      s!"Invalid buffer size {size}: buffer size must be in the range 1...{most}"
  | .metadata path reason => s!"Failed to load metadata from '{path.text}': {reason}"

inductive ChecksumError
  | list (path : Path) (cause : IoError)
  | read (path : Path) (cause : IoError)
  | write (path : Path) (cause : IoError)
deriving DecidableEq, Repr

namespace ChecksumError

def path : ChecksumError → Path
  | list path _ | read path _ | write path _ => path

def cause : ChecksumError → IoError
  | list _ cause | read _ cause | write _ cause => cause

def message : ChecksumError → String
  | list path cause => s!"Failed to list '{path.text}': {cause.text}"
  | read path cause => s!"Failed to read '{path.text}': {cause.text}"
  | write path cause => s!"Failed to write manifest '{path.text}': {cause.text}"

/-- The messages from this error down to its first cause. -/
def trail (error : ChecksumError) : List String := [error.message, error.cause.text]

end ChecksumError

inductive EngineError
  | failed (reason : String)
  | transform (path : Path) (record : Nat) (reason : String)
  | io (cause : IoError)
deriving DecidableEq, Repr

namespace EngineError

def message : EngineError → String
  | failed reason => reason
  | transform path record reason =>
      s!"Transform failed on record {record} of '{path.text}': {reason}"
  | io cause => s!"I/O error: {cause.text}"

def trail (error : EngineError) : List String :=
  error.message :: match error with
    | io cause => [cause.text]
    | _ => []

end EngineError

inductive StageError
  | clearTemp (path : Path) (cause : IoError)
  | sizeScan (path : Path) (cause : IoError)
  | engine (jobId : String) (cause : EngineError)
  | checksum (cause : ChecksumError)
deriving DecidableEq, Repr

namespace StageError

def message : StageError → String
  | clearTemp path cause => s!"Failed to clear temp directory '{path.text}': {cause.text}"
  | sizeScan path cause => s!"Failed to compute size of input '{path.text}': {cause.text}"
  | engine jobId cause => s!"Job {jobId} failed: {cause.message}"
  | checksum cause => s!"Checksum failed: {cause.message}"

def trail (error : StageError) : List String :=
  error.message :: match error with
    | clearTemp _ cause | sizeScan _ cause => [cause.text]
    | engine _ cause => cause.trail
    | checksum cause => cause.trail

end StageError

inductive BuildError
  | config (cause : ConfigError)
  | precondition (path : Path) (reason : String)
  | failed (cause : StageError)
deriving DecidableEq, Repr

namespace BuildError

def message : BuildError → String
  | config cause => s!"Configuration error: {cause.message}"
  | precondition path reason => s!"Precondition failed for '{path.text}': {reason}"
  | failed cause => s!"Build failed: {cause.message}"

def causes : BuildError → List String
  | config cause => [cause.message]
  | precondition _ _ => []
  | failed cause => cause.trail

def trail (error : BuildError) : List String := error.message :: error.causes

def isPreBuild : BuildError → Bool
  | config _ | precondition _ _ => true
  | failed _ => false

end BuildError

end ChunkStore
