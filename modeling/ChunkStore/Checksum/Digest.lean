import ChunkStore.Bytes.Md5
import ChunkStore.Checksum.Order
import ChunkStore.FileSystem.Source

/-!
The digest of a node directory: the MD5 of the MD5s of its files, in checksum order. Files are
read in pieces through one hasher, whatever their size.
-/

namespace ChunkStore.Checksum

set_option autoImplicit false

def manifestName : String := "checkSum.txt"

structure NodeDigest where
  directory : Path
  digest : Bytes
  files : List Path
  bytes : Nat
deriving DecidableEq, Repr

/-- Feeds a hasher from a source up to its end and counts the bytes. Interrupted reads are made
again. -/
@[specialize] def hashSource {m : Type → Type} [Monad m] (source : Source m) (size : Nat) :
    Nat → Md5.Hasher → ExceptT IoError m Md5.Hasher
  | 0, hasher => pure hasher
  | patience + 1, hasher => do
      match ← outcome (source size) with
      | .error error =>
          if error.isInterruption then hashSource source size patience hasher else throw error
      | .ok [] => pure hasher
      | .ok piece => hashSource source size patience (hasher.update piece)

variable {m : Type → Type} [Monad m] {Reader Writer : Type}

def ofFile (files : FileSystem m Reader Writer) (path : Path) (size : Nat) :
    ExceptT ChecksumError m (Bytes × Nat) :=
  files.reading (.read path) path fun patience => do
    let hasher ← (hashSource files.read size patience .initial).adapt (.read path)
    pure (hasher.finish, hasher.total)

def hashFiles (files : FileSystem m Reader Writer) (size : Nat) :
    List Status → Md5.Hasher × Nat → ExceptT ChecksumError m (Md5.Hasher × Nat)
  | [], state => pure state
  | status :: rest, (hasher, bytes) => do
      let (digest, length) ← ofFile files status.path size
      hashFiles files size rest (hasher.update digest, bytes + length)

/-- The digest of a node directory. A buffer of no bytes counts as one byte. -/
def ofDirectory (files : FileSystem m Reader Writer) (options : ChecksumOptions)
    (directory : Path) : ExceptT ChecksumError m NodeDigest := do
  let entries ← (files.list directory).adapt (.list directory)
  let inputs := options.order.inputs manifestName entries
  let (hasher, bytes) ← hashFiles files (max options.bufferSize 1) inputs (.initial, 0)
  pure { directory, digest := hasher.finish, files := inputs.map (·.path), bytes }

end ChunkStore.Checksum
