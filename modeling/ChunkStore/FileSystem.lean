import ChunkStore.Bytes
import ChunkStore.IoError
import ChunkStore.Path

/-!
What the library asks of a place that keeps files. A file system is a record of calls in a monad
of its own; every call may fail, and what it changed before it failed stays changed. A reader and
a writer are values that a call takes and gives back, so that two of them never share a state
that the file system does not keep itself.
-/

namespace ChunkStore

set_option autoImplicit false

/-- What a listing says of one entry. The length of a directory is zero. -/
structure Status where
  path : Path
  isDirectory : Bool
  length : Nat
deriving DecidableEq, Repr

namespace Status

def file (path : Path) (length : Nat) : Status := ⟨path, false, length⟩

def directory (path : Path) : Status := ⟨path, true, 0⟩

def name (status : Status) : String := status.path.name

def isHidden (status : Status) : Bool := status.name.toList.head? == some '.'

end Status

/-- The calls of a file system.

* `list` gives the children of a directory in the order the file system keeps, and for a file
  the status of that file alone.
* `read size` gives at most `size` bytes, and none at the end of the file.
* `create` empties a file or makes it, together with the directories above it.
* `close` may still write what a writer holds back.
* `deleteTree` removes a path with everything below it and says whether anything was there.
* `patience` bounds how many calls of `read` a reader answers with bytes or an interruption.
* `extent` bounds how many paths a walk down from one directory can come to. -/
structure FileSystem (m : Type → Type) (Reader Writer : Type) where
  exists? : Path → ExceptT IoError m Bool
  list : Path → ExceptT IoError m (List Status)
  openReader : Path → ExceptT IoError m Reader
  read : Nat → ExceptT IoError (StateT Reader m) Bytes
  create : Path → ExceptT IoError m Writer
  write : Bytes → ExceptT IoError (StateT Writer m) Unit
  flush : ExceptT IoError (StateT Writer m) Unit
  close : Writer → m Unit
  createDirectories : Path → ExceptT IoError m Unit
  deleteTree : Path → ExceptT IoError m Bool
  patience : Reader → Nat
  extent : m Nat

def onPart {m : Type → Type} [Monad m] {ε Whole Part α : Type}
    (part : Whole → Part) (replace : Whole → Part → Whole)
    (body : ExceptT ε (StateT Part m) α) : ExceptT ε (StateT Whole m) α :=
  ExceptT.mk fun whole => do
    let (result, after) ← body.run.run (part whole)
    pure (result, replace whole after)

/-- A computation below a layer of state, which it leaves alone. -/
def below {m : Type → Type} [Monad m] {ε σ α : Type} (body : ExceptT ε m α) :
    ExceptT ε (StateT σ m) α :=
  ExceptT.mk (StateT.lift body.run)

def outcome {m : Type → Type} [Monad m] {ε α : Type} (body : ExceptT ε m α) :
    ExceptT ε m (Except ε α) :=
  ExceptT.lift body.run

namespace FileSystem

variable {m n : Type → Type} {Reader Writer ε α : Type}

/-- Opens a file and reads it with `body`, which learns how patient it has to be. -/
def reading [Monad m] (files : FileSystem m Reader Writer) (wrap : IoError → ε) (path : Path)
    (body : Nat → ExceptT ε (StateT Reader m) α) : ExceptT ε m α := do
  let reader ← (files.openReader path).adapt wrap
  ExceptT.mk do
    let (result, _) ← (body (files.patience reader + 1)).run.run reader
    pure result

def lift [Monad m] [Monad n] [MonadLiftT m n] (files : FileSystem m Reader Writer) :
    FileSystem n Reader Writer where
  exists? path := ExceptT.mk (liftM (files.exists? path).run)
  list path := ExceptT.mk (liftM (files.list path).run)
  openReader path := ExceptT.mk (liftM (files.openReader path).run)
  read size := ExceptT.mk fun reader => liftM ((files.read size).run.run reader)
  create path := ExceptT.mk (liftM (files.create path).run)
  write bytes := ExceptT.mk fun writer => liftM ((files.write bytes).run.run writer)
  flush := ExceptT.mk fun writer => liftM (files.flush.run.run writer)
  close writer := liftM (files.close writer)
  createDirectories path := ExceptT.mk (liftM (files.createDirectories path).run)
  deleteTree path := ExceptT.mk (liftM (files.deleteTree path).run)
  patience := files.patience
  extent := liftM files.extent

end FileSystem

end ChunkStore
