import ChunkStore.FileSystem

/-!
Files kept in memory. The entries are one list in the order of their creation, and a directory
lists its children in that order: writing over a file keeps its place, deleting and making it
again moves it to the end. A writer holds everything written to it and publishes the whole of it
when it is flushed and when it is closed.
-/

namespace ChunkStore.Memory

set_option autoImplicit false

inductive Node
  | directory
  | file (contents : Bytes)
deriving DecidableEq, Repr

namespace Node

def isDirectory : Node → Bool
  | directory => true
  | file _ => false

def contents? : Node → Option Bytes
  | directory => none
  | file contents => some contents

end Node

structure Entry where
  path : Path
  node : Node
deriving DecidableEq, Repr

def Entry.status (entry : Entry) : Status :=
  match entry.node with
  | .directory => .directory entry.path
  | .file contents => .file entry.path contents.length

/-- The entries in the order of their creation, and the paths whose reads are made to fail. -/
structure Tree where
  entries : List Entry
  failing : List Path
deriving DecidableEq, Repr

namespace Tree

def empty : Tree := ⟨[], []⟩

def size (tree : Tree) : Nat := tree.entries.length

def find? (tree : Tree) (path : Path) : Option Entry :=
  tree.entries.find? fun entry => entry.path.same path

def node? (tree : Tree) (path : Path) : Option Node := (tree.find? path).map (·.node)

def contents? (tree : Tree) (path : Path) : Option Bytes := (tree.node? path).bind Node.contents?

def isFile (tree : Tree) (path : Path) : Bool := (tree.contents? path).isSome

def isPresent (tree : Tree) (path : Path) : Bool := path.isRoot || (tree.node? path).isSome

/-- Adds the directories of a path that are missing, the outermost first. -/
def ensureDirectories (tree : Tree) (path : Path) : Tree :=
  let missing := path.ancestors.filter fun above =>
    !above.isRoot && (tree.node? above).isNone
  { tree with entries := tree.entries ++ missing.reverse.map (⟨·, .directory⟩) }

/-- Puts a file where something already is in its place, or at the end. -/
def putFile (tree : Tree) (path : Path) (contents : Bytes) : Tree :=
  if (tree.find? path).isSome then
    { tree with entries := tree.entries.map fun entry =>
        if entry.path.same path then { entry with node := .file contents } else entry }
  else { tree with entries := tree.entries ++ [⟨path, .file contents⟩] }

/-- Adds a file with the directories above it, without looking at what is there. -/
def addFile (tree : Tree) (path : Path) (contents : Bytes) : Tree :=
  let parents := match path.parent? with
    | some parent => tree.ensureDirectories parent
    | none => tree
  parents.putFile path contents

def failReads (tree : Tree) (path : Path) : Tree := { tree with failing := path :: tree.failing }

def children (tree : Tree) (path : Path) : List Status :=
  (tree.entries.filter fun entry => entry.path.isChildOf path).map Entry.status

def doesNotExist (path : Path) : IoError := .notFound s!"{path.text} does not exist"

def list (tree : Tree) (path : Path) : Except IoError (List Status) :=
  match tree.node? path with
  | some (.file contents) => .ok [.file path contents.length]
  | some .directory => .ok (tree.children path)
  | none => if path.isRoot then .ok (tree.children path) else .error (doesNotExist path)

/-- The outermost word on whether directories can be made: the nearest file on the way up. -/
def blockingFile? (tree : Tree) (path : Path) : Option Path := path.ancestors.find? tree.isFile

/-- Makes a directory and those above it, or changes nothing if a file is in the way. -/
def createDirectories (tree : Tree) (path : Path) : Except IoError Tree :=
  match tree.blockingFile? path with
  | some file => .error (.alreadyExists s!"{file.text} is a file")
  | none => .ok (tree.ensureDirectories path)

/-- Empties a file or makes it with the directories above it, or changes nothing if a directory
has its path or a file is in the way. -/
def create (tree : Tree) (path : Path) : Except IoError Tree :=
  if tree.node? path = some .directory then
    .error (.alreadyExists s!"{path.text} is a directory")
  else
    match path.parent? with
    | none => .ok (tree.putFile path [])
    | some parent => (tree.createDirectories parent).map (·.putFile path [])

def delete (tree : Tree) (path : Path) : Tree :=
  { tree with entries := tree.entries.filter fun entry => !entry.path.startsWith path }

def isFailing (tree : Tree) (path : Path) : Bool := tree.failing.any (·.same path)

end Tree

/-- What is left to read of a file as it was when it was opened, or a reader that only fails. -/
inductive Reader
  | failing
  | rest (bytes : Bytes)
deriving DecidableEq, Repr

namespace Reader

def patience : Reader → Nat
  | failing => 0
  | rest bytes => bytes.length

def read (size : Nat) : Reader → Except IoError Bytes × Reader
  | failing => (.error (.other "injected read failure"), failing)
  | rest bytes => (.ok (bytes.take size), rest (bytes.drop size))

end Reader

def Tree.openReader (tree : Tree) (path : Path) : Except IoError Reader :=
  match tree.node? path with
  | some (.file contents) =>
      if tree.isFailing path then .ok .failing else .ok (.rest contents)
  | some .directory => .error (.other s!"{path.text} is a directory")
  | none => .error (Tree.doesNotExist path)

/-- A path to publish at, and what was written so far, the latest piece first. -/
structure Writer where
  path : Path
  pieces : List Bytes
deriving DecidableEq, Repr

namespace Writer

def opened (path : Path) : Writer := ⟨path, []⟩

def write (writer : Writer) (piece : Bytes) : Writer :=
  { writer with pieces := piece :: writer.pieces }

def written (writer : Writer) : Bytes := writer.pieces.reverse.flatten

end Writer

/-- Publishing happens wherever the path is by then, with no check. -/
def Tree.publish (tree : Tree) (writer : Writer) : Tree := tree.putFile writer.path writer.written

def stepping (step : Tree → Except IoError Tree) : ExceptT IoError (StateM Tree) Unit :=
  ExceptT.mk fun tree =>
    match step tree with
    | .ok after => (.ok (), after)
    | .error error => (.error error, tree)

def asking {α : Type} (question : Tree → Except IoError α) : ExceptT IoError (StateM Tree) α :=
  ExceptT.mk fun tree => (question tree, tree)

def files : FileSystem (StateM Tree) Reader Writer where
  exists? path := asking fun tree => .ok (tree.isPresent path)
  list path := asking (·.list path)
  openReader path := asking (·.openReader path)
  read size := ExceptT.mk fun reader => pure (reader.read size)
  create path := do
    stepping (·.create path)
    pure (Writer.opened path)
  write piece := ExceptT.mk fun writer => pure (.ok (), writer.write piece)
  flush := ExceptT.mk fun writer => do
    modify (·.publish writer)
    pure (.ok (), writer)
  close writer := modify (·.publish writer)
  createDirectories path := stepping (·.createDirectories path)
  deleteTree path := ExceptT.mk fun tree =>
    let after := tree.delete path
    (.ok (after.size != tree.size), after)
  patience := Reader.patience
  extent := do return (← get).size + 1

end ChunkStore.Memory
