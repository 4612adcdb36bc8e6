import ChunkStore.FileSystem

/-!
A file system with faults. A fault names a path and one kind of call; such calls on that path fail
before they reach the file system below. Faults of reading and writing belong to the reader or
writer that was opened while they stood.
-/

namespace ChunkStore.Faulty

set_option autoImplicit false

inductive Site
  | exists
  | list
  | openReader
  | create
  | createDirectories
  | delete
  /-- Reading fails once a number of bytes were delivered. -/
  | read
  /-- Reading delivers at most a number of bytes at once. -/
  | short
  /-- Every other read is interrupted, the first one first. -/
  | interrupt
  | write
  | flush
deriving DecidableEq, Repr

def Site.named : List (String × Site) :=
  [("exists", .exists), ("list", .list), ("open", .openReader), ("create", .create),
   ("create_dir_all", .createDirectories), ("delete", .delete), ("read", .read),
   ("short", .short), ("interrupt", .interrupt), ("write", .write), ("flush", .flush)]

def Site.ofName? (name : String) : Option Site := named.lookup name

structure Fault where
  path : Path
  site : Site
  error : IoError
  after : Nat
deriving DecidableEq, Repr

/-- The earliest fault for a kind of call on a path. -/
def find? (faults : List Fault) (site : Site) (path : Path) : Option Fault :=
  faults.find? fun fault => fault.site == site && fault.path.same path

structure Reader (Inner : Type) where
  inner : Inner
  failing : Option Fault
  short : Option Fault
  interrupted : Bool
  calls : Nat
  delivered : Nat

structure Writer (Inner : Type) where
  inner : Inner
  failing : Option Fault
  flushFailing : Option Fault

variable {m : Type → Type} [Monad m] {InnerReader InnerWriter : Type}

/-- How much of a request reaches the reader below, or how the request fails. -/
def Reader.allowance (reader : Reader InnerReader) (size : Nat) : Except IoError Nat :=
  if reader.interrupted ∧ reader.calls % 2 = 0 then .error ⟨.interrupted, "interrupted"⟩
  else
    let limited := match reader.short with
      | some fault => min size fault.after
      | none => size
    match reader.failing with
    | none => .ok limited
    | some fault =>
        if fault.after ≤ reader.delivered then .error fault.error
        else .ok (min limited (fault.after - reader.delivered))

def readInner (files : FileSystem m InnerReader InnerWriter) (size : Nat) :
    ExceptT IoError (StateT (Reader InnerReader) m) Bytes := do
  let bytes ← onPart Reader.inner (fun reader inner => { reader with inner }) (files.read size)
  modify fun reader => { reader with delivered := reader.delivered + bytes.length }
  pure bytes

def guarded {α : Type} (faults : List Fault) (site : Site) (path : Path)
    (call : ExceptT IoError m α) : ExceptT IoError m α :=
  match find? faults site path with
  | some fault => throw fault.error
  | none => call

def files (faults : List Fault) (below : FileSystem m InnerReader InnerWriter) :
    FileSystem m (Reader InnerReader) (Writer InnerWriter) where
  exists? path := guarded faults .exists path (below.exists? path)
  list path := guarded faults .list path (below.list path)
  openReader path := do
    let inner ← guarded faults .openReader path (below.openReader path)
    pure
      { inner
        failing := find? faults .read path
        short := find? faults .short path
        interrupted := (find? faults .interrupt path).isSome
        calls := 0
        delivered := 0 }
  read size := do
    let reader ← get
    modify fun reader => { reader with calls := reader.calls + 1 }
    match reader.allowance size with
    | .error error => throw error
    | .ok allowed => readInner below allowed
  create path := do
    let inner ← guarded faults .create path (below.create path)
    pure { inner, failing := find? faults .write path, flushFailing := find? faults .flush path }
  write piece := do
    match (← get).failing with
    | some fault => throw fault.error
    | none => onPart Writer.inner (fun writer inner => { writer with inner }) (below.write piece)
  flush := do
    match (← get).flushFailing with
    | some fault => throw fault.error
    | none => onPart Writer.inner (fun writer inner => { writer with inner }) below.flush
  close writer := below.close writer.inner
  createDirectories path :=
    guarded faults .createDirectories path (below.createDirectories path)
  deleteTree path := guarded faults .delete path (below.deleteTree path)
  patience reader := 2 * (below.patience reader.inner + 1)
  extent := below.extent

end ChunkStore.Faulty
