import ChunkStore.FileSystem.Contents
import ChunkStore.Job

/-!
Engines that stand in for a real one: they succeed or fail without mapping any input, and another
keeps a list of the jobs it was given before it hands them on.
-/

namespace ChunkStore.JobEngine

set_option autoImplicit false

def idle {m : Type → Type} [Monad m] : JobEngine m where
  name := "noop"
  run _ := pure ()

def failing {m : Type → Type} [Monad m] : JobEngine m where
  name := "fail"
  run _ := throw (.failed "reducer 3 lost")

/-- Puts a short text that names the partition into both files of every chunk. -/
def placeholder {m : Type → Type} [Monad m] {Reader Writer : Type}
    (files : FileSystem m Reader Writer) : JobEngine m where
  name := "mock"
  run job :=
    (List.range job.reduceTasks.toNat).forM fun partition =>
      match job.chunkFor (UInt32.ofNat partition) with
      | none => pure ()
      | some chunk => do
          let put (path : Path) (letter : String) : ExceptT EngineError m Unit :=
            (files.writeWhole path [Bytes.ofText s!"{letter}{partition}"] false).adapt .io
          put (chunk.dataPath job.output) "d"
          put (chunk.indexPath job.output) "i"

def recording {m : Type → Type} [Monad m] (engine : JobEngine m) :
    JobEngine (StateT (List JobSpec) m) where
  name := engine.name
  run job := ExceptT.mk fun jobs => do
    let result ← (engine.run job).run
    pure (result, job :: jobs)

end ChunkStore.JobEngine
