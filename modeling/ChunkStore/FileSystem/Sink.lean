import ChunkStore.FileSystem

/-!
Writing through a buffer. Bytes are held back until they fill the buffer; a piece as long as the
whole buffer goes past it. What a failed write could not hand on stays held back, and closing
the file tries it once more.
-/

namespace ChunkStore

set_option autoImplicit false

/-- Pieces held back, the latest first, and how many bytes they are. -/
structure HeldBytes where
  pieces : List Bytes
  size : Nat
deriving DecidableEq, Repr

namespace HeldBytes

def empty : HeldBytes := ⟨[], 0⟩

def add (held : HeldBytes) (piece : Bytes) : HeldBytes :=
  ⟨piece :: held.pieces, held.size + piece.length⟩

def bytes (held : HeldBytes) : Bytes := held.pieces.reverse.flatten

end HeldBytes

structure OpenFile (Writer : Type) where
  writer : Writer
  held : HeldBytes := .empty

namespace OpenFile

variable {m : Type → Type} [Monad m] {Reader Writer : Type}

def send (files : FileSystem m Reader Writer) (piece : Bytes) :
    ExceptT IoError (StateT (OpenFile Writer) m) Unit :=
  if piece.isEmpty then pure ()
  else onPart OpenFile.writer (fun file writer => { file with writer }) (files.write piece)

def drain (files : FileSystem m Reader Writer) :
    ExceptT IoError (StateT (OpenFile Writer) m) Unit := do
  let file ← get
  send files file.held.bytes
  modify fun file => { file with held := .empty }

/-- Takes one piece: holds it back if it fits, else makes room first, and hands it on at once if
it is as long as the buffer. -/
def write (files : FileSystem m Reader Writer) (capacity : Nat) (piece : Bytes) :
    ExceptT IoError (StateT (OpenFile Writer) m) Unit := do
  let file ← get
  let size := piece.length
  if capacity < file.held.size + size then drain files
  if capacity ≤ size then send files piece
  else modify fun file => { file with held := file.held.add piece }

def flush (files : FileSystem m Reader Writer) :
    ExceptT IoError (StateT (OpenFile Writer) m) Unit := do
  drain files
  onPart OpenFile.writer (fun file writer => { file with writer }) files.flush

/-- Tries once more to hand on what is held back, and closes the file whatever came of it. -/
def close (files : FileSystem m Reader Writer) (file : OpenFile Writer) : m Unit := do
  let (_, after) ← (drain files).run.run file
  files.close after.writer

end OpenFile

end ChunkStore
