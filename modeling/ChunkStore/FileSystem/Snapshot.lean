import ChunkStore.FileSystem.Contents

/-!
Everything below a path as one list: directories before what they hold, in listing order, and
files with their contents.
-/

namespace ChunkStore

set_option autoImplicit false

/-- What a snapshot says of one path. A file that cannot be read has no contents. -/
inductive Snapshot.Entry
  | directory (path : Path)
  | file (path : Path) (contents : Option Bytes)
deriving DecidableEq, Repr

namespace Snapshot

variable {m : Type → Type} [Monad m] {Reader Writer : Type}

@[specialize] def collect (files : FileSystem m Reader Writer) :
    Nat → List Status → List Entry → ExceptT IoError m (List Entry)
  | 0, _, taken => pure taken.reverse
  | _, [], taken => pure taken.reverse
  | steps + 1, status :: waiting, taken =>
      if status.isDirectory then do
        let children ← files.list status.path
        collect files steps (children ++ waiting) (.directory status.path :: taken)
      else do
        let contents ← outcome (files.readWhole status.path)
        collect files steps waiting (.file status.path contents.toOption :: taken)

/-- Everything that a listing of a path leads to; the first listing that fails ends it. -/
def take (files : FileSystem m Reader Writer) (path : Path) : ExceptT IoError m (List Entry) := do
  let extent ← ExceptT.lift files.extent
  collect files (extent + 1) (← files.list path) []

end Snapshot

end ChunkStore
