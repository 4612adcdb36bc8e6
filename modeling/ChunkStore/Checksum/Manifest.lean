import ChunkStore.Checksum.Digest
import ChunkStore.FileSystem.Contents

/-!
Manifests. Aggregating a node directory digests it and then writes the digest into its manifest;
verifying digests it again and compares. A failed digest writes nothing.
-/

namespace ChunkStore.Checksum

set_option autoImplicit false

inductive Verification
  | matching (digest : Bytes)
  | mismatch (expected actual : Bytes)
  | missing (actual : Bytes)
deriving DecidableEq, Repr

def Verification.isMatch : Verification → Bool
  | .matching _ => true
  | _ => false

def Verification.compare (expected : Option Bytes) (actual : Bytes) : Verification :=
  match expected with
  | none => .missing actual
  | some expected => if expected = actual then .matching actual else .mismatch expected actual

variable {m : Type → Type} [Monad m] {Reader Writer : Type}

def manifestPath (directory : Path) : Path := directory.join manifestName

def aggregate (files : FileSystem m Reader Writer) (options : ChecksumOptions)
    (directory : Path) : ExceptT ChecksumError m NodeDigest := do
  let node ← ofDirectory files options directory
  let path := manifestPath directory
  (files.writeWhole path [node.digest] true).adapt (.write path)
  pure node

def nodeDirectories (files : FileSystem m Reader Writer) (output : Path) :
    ExceptT ChecksumError m (List Path) := do
  let entries ← (files.list output).adapt (.list output)
  pure ((entries.filter (·.isDirectory)).map (·.path))

/-- Aggregates every directory under an output, up to the first failure. -/
def aggregateAll (files : FileSystem m Reader Writer) (options : ChecksumOptions)
    (output : Path) : ExceptT ChecksumError m (List NodeDigest) := do
  (← nodeDirectories files output).mapM (aggregate files options)

def readManifest (files : FileSystem m Reader Writer) (directory : Path) :
    ExceptT ChecksumError m (Option Bytes) := do
  let path := manifestPath directory
  if ← (files.exists? path).adapt (.read path) then
    return some (← (files.readWhole path).adapt (.read path))
  else pure none

/-- Checks a node directory against its manifest, which is read first. -/
def verify (files : FileSystem m Reader Writer) (options : ChecksumOptions)
    (directory : Path) : ExceptT ChecksumError m Verification := do
  let expected ← readManifest files directory
  let node ← ofDirectory files options directory
  pure (.compare expected node.digest)

def verifyAll (files : FileSystem m Reader Writer) (options : ChecksumOptions)
    (output : Path) : ExceptT ChecksumError m (List (Path × Verification)) := do
  (← nodeDirectories files output).mapM fun directory => do
    return (directory, ← verify files options directory)

end ChunkStore.Checksum
