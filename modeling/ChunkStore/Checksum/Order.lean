import ChunkStore.Config
import ChunkStore.FileSystem

/-!
The order in which the files of a node directory are digested: files of data before index files,
each kind in listing order or by name. Directories, hidden files and the manifest are left out.
-/

namespace ChunkStore

set_option autoImplicit false

/-- The kinds of entries, in the order in which they are put. -/
inductive EntryKind
  | directory
  | data
  | index
deriving DecidableEq, Repr

namespace EntryKind

def rank : EntryKind → Nat
  | directory => 0
  | data => 1
  | index => 2

def indexEnding : List Char := ['.', 'i', 'n', 'd', 'e', 'x']

def ofStatus (status : Status) : EntryKind :=
  if status.isDirectory then .directory
  else if indexEnding.isSuffixOf status.name.toList then .index
  else .data

end EntryKind

namespace ChecksumOrder

def le (order : ChecksumOrder) (left right : Status) : Bool :=
  let leftRank := (EntryKind.ofStatus left).rank
  let rightRank := (EntryKind.ofStatus right).rank
  match order with
  | .listing => leftRank ≤ rightRank
  | .byName => leftRank < rightRank || (leftRank == rightRank && !(right.name < left.name : Bool))

/-- Entries in checksum order; those that compare equal stay in the order they came in. -/
def arrange (order : ChecksumOrder) (entries : List Status) : List Status :=
  entries.mergeSort order.le

def inputs (order : ChecksumOrder) (manifest : String) (entries : List Status) : List Status :=
  (order.arrange entries).filter fun status =>
    !status.isDirectory && !status.isHidden && status.name != manifest

end ChecksumOrder

end ChunkStore
