import ChunkStore.FileSystem

/-!
The size of everything under a path. Directories wait on a stack, so the depth of a tree costs
nothing but room; the last directory found is visited first.
-/

namespace ChunkStore

set_option autoImplicit false

/-- What a scan has counted: directories with the first one, files, their bytes, and how many
steps below the first directory the deepest one lies. -/
structure ScanTotals where
  directories : Nat
  files : Nat
  bytes : Nat
  maxDepth : Nat
deriving DecidableEq, Repr

namespace ScanTotals

def zero : ScanTotals := ⟨0, 0, 0, 0⟩

def addFile (totals : ScanTotals) (length : Nat) : ScanTotals :=
  { totals with files := totals.files + 1, bytes := totals.bytes + length }

def addDirectory (totals : ScanTotals) (depth : Nat) : ScanTotals :=
  { totals with
    directories := totals.directories + 1
    maxDepth := max totals.maxDepth depth }

end ScanTotals

/-- A directory that waits for its visit, or a path of which that is still unknown. -/
structure Pending where
  path : Path
  depth : Nat
deriving DecidableEq, Repr

namespace Scan

def isFileListing (path : Path) (statuses : List Status) : Bool :=
  match statuses with
  | [status] => !status.isDirectory && status.path.same path
  | _ => false

def tally (work : Pending) (statuses : List Status) (totals : ScanTotals) : ScanTotals :=
  let visited := if isFileListing work.path statuses then totals
    else totals.addDirectory work.depth
  statuses.foldl (fun totals status =>
    if status.isDirectory then totals else totals.addFile status.length) visited

/-- The directories of a listing, the last one first as they are visited. -/
def onward (work : Pending) (statuses : List Status) : List Pending :=
  ((statuses.filter (·.isDirectory)).map fun status => ⟨status.path, work.depth + 1⟩).reverse

variable {m : Type → Type} [Monad m] {Reader Writer : Type}

/-- Visits everything that waits, in so many steps at most. Only the first path may be absent. -/
@[specialize] def visit (files : FileSystem m Reader Writer) :
    Nat → List Pending → ScanTotals → ExceptT IoError m ScanTotals
  | 0, _, totals => pure totals
  | _, [], totals => pure totals
  | steps + 1, work :: waiting, totals => do
      match ← outcome (files.list work.path) with
      | .ok statuses =>
          visit files steps (onward work statuses ++ waiting) (tally work statuses totals)
      | .error error =>
          if error.kind = .notFound ∧ work.depth = 0 then visit files steps waiting totals
          else throw error

/-- Counts everything under a path. A path that is not there counts nothing. -/
def totals (files : FileSystem m Reader Writer) (path : Path) : ExceptT IoError m ScanTotals := do
  let extent ← ExceptT.lift files.extent
  visit files (extent + 1) [⟨path, 0⟩] .zero

def size (files : FileSystem m Reader Writer) (path : Path) : ExceptT IoError m Nat := do
  return (← totals files path).bytes

end Scan

end ChunkStore
