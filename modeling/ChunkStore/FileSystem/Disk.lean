import ChunkStore.FileSystem.Disk.Calls
import ChunkStore.FileSystem.Sink

/-!
A disk as a file system. Listings follow links and leave out a link that leads nowhere; children
come in the order of their names. Opening a directory succeeds, and reading it fails. Writers
hold back up to eight kibibytes.
-/

namespace ChunkStore.Disk

set_option autoImplicit false

/-- A file by its number, the position of the next read, and how long the file was at first. -/
structure Reader where
  number : Nat
  position : Nat
  length : Nat
deriving DecidableEq, Repr

structure Cursor where
  number : Nat
  position : Nat
deriving DecidableEq, Repr

def asking {α : Type} (question : Tree → Except Refusal α) : ExceptT IoError (StateM Tree) α :=
  ExceptT.mk fun tree => ((question tree).mapError Refusal.error, tree)

/-- A call that leaves the disk as it is when it is refused. -/
def stepping {α : Type} (step : Tree → Except Refusal (α × Tree)) :
    ExceptT IoError (StateM Tree) α :=
  ExceptT.mk fun tree =>
    match step tree with
    | .ok (value, after) => (.ok value, after)
    | .error refusal => (.error refusal.error, tree)

/-- A call that may change the disk before it is refused. -/
def running {α : Type} (step : Tree → Except Refusal α × Tree) : ExceptT IoError (StateM Tree) α :=
  ExceptT.mk fun tree =>
    let (result, after) := step tree
    (result.mapError Refusal.error, after)

namespace Tree

def exists? (tree : Tree) (text : String) : Except Refusal Bool :=
  match tree.stat text with
  | .ok _ => .ok true
  | .error .noEntry => .ok false
  | .error refusal => .error refusal

/-- The status of a child, or nothing for a link that leads nowhere. -/
def childStatus? (tree : Tree) (path : Path) : Except Refusal (Option Status) :=
  match tree.stat path.text with
  | .ok number =>
      .ok (some (if (tree.node number).isDirectory then .directory path
        else .file path (tree.lengthOf number)))
  | .error .noEntry => .ok none
  | .error refusal => .error refusal

def list (tree : Tree) (path : Path) : Except Refusal (List Status) := do
  let number ← tree.stat path.text
  match tree.node number with
  | .directory _ children =>
      let statuses ← children.mapM fun entry => tree.childStatus? (path.join entry.1)
      pure (statuses.filterMap id)
  | _ => pure [.file path (tree.lengthOf number)]

/-- Between two links a path stays within the tree, where its last node determines it, and at most
forty links are followed. -/
def extent (tree : Tree) : Nat := Nat.pow (tree.nodes.size + 1) (linkLimit + 1)

end Tree

def createDirectories (path : Path) : ExceptT IoError (StateM Tree) Unit :=
  running fun tree => tree.makeDirectories (path.ancestors.map (·.text))

def makeLink (target path : Path) : ExceptT IoError (StateM Tree) Unit :=
  stepping fun tree => (tree.makeLink target.text path.text).map fun after => ((), after)

/-- The disk with writers that hand on every piece at once. -/
def directFiles : FileSystem (StateM Tree) Reader Cursor where
  exists? path := asking (·.exists? path.text)
  list path := asking (·.list path)
  openReader path := asking fun tree => do
    let number ← tree.stat path.text
    pure ⟨number, 0, tree.lengthOf number⟩
  read size := ExceptT.mk fun reader tree =>
    match tree.readAt reader.number reader.position size with
    | .ok bytes => ((.ok bytes, { reader with position := reader.position + bytes.length }), tree)
    | .error refusal => ((.error refusal.error, reader), tree)
  create path := do
    match path.parent? with
    | some parent => if parent.text ≠ "" then createDirectories parent
    | none => pure ()
    let number ← stepping fun tree => tree.truncate path.text
    pure ⟨number, 0⟩
  write piece := ExceptT.mk fun cursor tree =>
    ((.ok (), { cursor with position := cursor.position + piece.length }),
      tree.writeAt cursor.number cursor.position piece)
  flush := pure ()
  close _ := pure ()
  createDirectories := createDirectories
  deleteTree path := running fun tree => tree.deleteTree path.text
  patience := Reader.length
  extent := do return (← get).extent

def writerCapacity : Nat := 8192

def files : FileSystem (StateM Tree) Reader (OpenFile Cursor) where
  exists? := directFiles.exists?
  list := directFiles.list
  openReader := directFiles.openReader
  read := directFiles.read
  create path := do
    let writer ← directFiles.create path
    pure { writer }
  write piece := OpenFile.write directFiles writerCapacity piece
  flush := OpenFile.flush directFiles
  close := OpenFile.close directFiles
  createDirectories := directFiles.createDirectories
  deleteTree := directFiles.deleteTree
  patience := directFiles.patience
  extent := directFiles.extent

def Tree.workingIn (directory : String) : Tree :=
  let made := ((createDirectories (.ofText directory)).run.run .empty).2
  match made.stat directory with
  | .ok number => { made with current := number }
  | .error _ => made

end ChunkStore.Disk
