import ChunkStore.FileSystem.Faulty

/-!
A session on a file system: readers and writers stay open under ids from one request to the next,
and faults stand until they are cleared. What was opened keeps the faults that stood at the time.
-/

namespace ChunkStore

set_option autoImplicit false

structure Session (Reader Writer : Type) where
  faults : List Faulty.Fault
  readers : List (String × Faulty.Reader Reader)
  writers : List (String × Faulty.Writer Writer)

inductive Session.Refusal
  | notOpen (id : String)
  | io (cause : IoError)
deriving DecidableEq, Repr

namespace Session

variable {m : Type → Type} [Monad m] {Reader Writer α : Type}

def start : Session Reader Writer := ⟨[], [], []⟩

def put (id : String) (value : α) (table : List (String × α)) : List (String × α) :=
  (id, value) :: table.filter fun entry => entry.1 != id

def drop (id : String) (table : List (String × α)) : List (String × α) :=
  table.filter fun entry => entry.1 != id

def view (session : Session Reader Writer) (files : FileSystem m Reader Writer) :
    FileSystem m (Faulty.Reader Reader) (Faulty.Writer Writer) :=
  Faulty.files session.faults files

def calling {ε : Type} (files : FileSystem m Reader Writer)
    (body : FileSystem m (Faulty.Reader Reader) (Faulty.Writer Writer) → ExceptT ε m α) :
    ExceptT ε (StateT (Session Reader Writer) m) α := do
  let session ← get
  below (body (session.view files))

/-! Faults -/

/-- A new fault comes behind those that stand. -/
def addFault (fault : Faulty.Fault) (session : Session Reader Writer) : Session Reader Writer :=
  { session with faults := session.faults ++ [fault] }

def clearFaults (session : Session Reader Writer) : Session Reader Writer :=
  { session with faults := [] }

/-! Writers -/

def closeWriter (files : FileSystem m Reader Writer) (id : String) :
    StateT (Session Reader Writer) m Unit := do
  match (← get).writers.lookup id with
  | none => pure ()
  | some writer =>
      modify fun session => { session with writers := drop id session.writers }
      StateT.lift (files.close writer.inner)

/-- Opens a writer. One that was open under the id is closed after the new one is created. -/
def openWriter (files : FileSystem m Reader Writer) (id : String) (path : Path) :
    ExceptT IoError (StateT (Session Reader Writer) m) Unit := do
  let writer ← calling files (·.create path)
  ExceptT.lift (closeWriter files id)
  modify fun session => { session with writers := put id writer session.writers }

def onWriter (id : String)
    (body : ExceptT IoError (StateT (Faulty.Writer Writer) m) α) :
    ExceptT Refusal (StateT (Session Reader Writer) m) α := do
  match (← get).writers.lookup id with
  | none => throw (.notOpen id)
  | some writer =>
    ExceptT.mk fun session => do
      let (result, after) ← body.run.run writer
      pure (result.mapError .io, { session with writers := put id after session.writers })

def write (files : FileSystem m Reader Writer) (id : String) (piece : Bytes) :
    ExceptT Refusal (StateT (Session Reader Writer) m) Unit :=
  onWriter id (if piece.isEmpty then pure () else (Faulty.files [] files).write piece)

def flush (files : FileSystem m Reader Writer) (id : String) :
    ExceptT Refusal (StateT (Session Reader Writer) m) Unit :=
  onWriter id (Faulty.files [] files).flush

/-! Readers -/

def openReader (files : FileSystem m Reader Writer) (id : String) (path : Path) :
    ExceptT IoError (StateT (Session Reader Writer) m) Unit := do
  let reader ← calling files (·.openReader path)
  modify fun session => { session with readers := put id reader session.readers }

def readSome (files : FileSystem m Reader Writer) (id : String) (size : Nat) :
    ExceptT Refusal (StateT (Session Reader Writer) m) Bytes := do
  match (← get).readers.lookup id with
  | none => throw (.notOpen id)
  | some reader =>
    ExceptT.mk fun session => do
      let (result, after) ← ((Faulty.files [] files).read size).run.run reader
      pure (result.mapError .io, { session with readers := put id after session.readers })

end Session

end ChunkStore
