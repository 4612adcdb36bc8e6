import ChunkStore.FileSystem.Source

/-!
Whole files: reading everything in one, and making one from the pieces of its contents.
-/

namespace ChunkStore.FileSystem

set_option autoImplicit false

variable {m : Type → Type} [Monad m] {Reader Writer : Type}

def readWhole (files : FileSystem m Reader Writer) (path : Path) : ExceptT IoError m Bytes :=
  files.reading id path fun patience => Source.toEnd files.read patience

def writePieces (files : FileSystem m Reader Writer) :
    List Bytes → ExceptT IoError (StateT Writer m) Unit
  | [] => pure ()
  | piece :: rest => do
      if ¬ piece.isEmpty then files.write piece
      writePieces files rest

/-- Creates a file, writes pieces to it, flushes it if asked, and closes it whatever came of
it. -/
def writeWhole (files : FileSystem m Reader Writer) (path : Path) (pieces : List Bytes)
    (flushed : Bool) : ExceptT IoError m Unit := do
  let writer ← files.create path
  let body : ExceptT IoError (StateT Writer m) Unit := do
    files.writePieces pieces
    if flushed then files.flush
  ExceptT.mk do
    let (result, after) ← body.run.run writer
    files.close after
    pure result

end ChunkStore.FileSystem
