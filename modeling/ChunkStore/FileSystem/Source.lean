import ChunkStore.FileSystem

/-!
Reading. A source gives at most as many bytes as it is asked for, none at its end, and may be
interrupted between; what is read must not depend on where it chooses to pause. Loops over a
source are bounded by the patience that its opener promised.
-/

namespace ChunkStore

set_option autoImplicit false

/-- Gives at most as many bytes as asked for, and none at the end. -/
abbrev Source (m : Type → Type) := Nat → ExceptT IoError m Bytes

namespace Source

variable {m : Type → Type} [Monad m]

/-- Everything up to the end, in pieces of at most `size`; interrupted reads are made again. The
bytes so far come with the latest first. -/
@[specialize] def collect (source : Source m) (size : Nat) : Nat → Bytes → ExceptT IoError m Bytes
  | 0, got => pure got.reverse
  | patience + 1, got => do
      match ← outcome (source size) with
      | .error error =>
          if error.isInterruption then collect source size patience got else throw error
      | .ok [] => pure got.reverse
      | .ok piece => collect source size patience (piece.reverseAux got)

def toEnd (source : Source m) (patience : Nat) : ExceptT IoError m Bytes :=
  collect source 8192 patience []

/-- Exactly `size` bytes after those already got, latest first; the end before that is an error.
Interrupted reads are made again. -/
@[specialize] def collectExactly (source : Source m) :
    Nat → Nat → Bytes → ExceptT IoError m Bytes
  | _, 0, got => pure got.reverse
  | 0, _, _ => throw (.unexpectedEnd "failed to fill whole buffer")
  | patience + 1, size, got => do
      match ← outcome (source size) with
      | .error error =>
          if error.isInterruption then collectExactly source patience size got else throw error
      | .ok [] => throw (.unexpectedEnd "failed to fill whole buffer")
      | .ok piece =>
          collectExactly source patience (size - piece.length) (piece.reverseAux got)

def exactly (source : Source m) (patience size : Nat) : ExceptT IoError m Bytes :=
  collectExactly source patience size []

/-- The bytes held back, or when there are none as many as one read of `capacity` gives. -/
def fill (source : Source m) (capacity : Nat) : ExceptT IoError (StateT Bytes m) Bytes := do
  match ← get with
  | [] =>
      let bytes ← below (source capacity)
      set bytes
      pure bytes
  | held => pure held

/-- Reads through a buffer of the given capacity. A request that would empty the buffer at once
goes past it when nothing is held back. -/
def buffered (source : Source m) (capacity : Nat) : Source (StateT Bytes m) := fun size => do
  let held ← get
  if held.isEmpty ∧ capacity ≤ size then below (source size)
  else
    let bytes ← fill source capacity
    set (bytes.drop size)
    pure (bytes.take size)

def lineFeed : UInt8 := 10

/-- Bytes up to and with the next line feed, or up to the end, after those already got, latest
first. An empty answer is the end. -/
@[specialize] def collectLine (source : Source m) (capacity : Nat) :
    Nat → Bytes → ExceptT IoError (StateT Bytes m) Bytes
  | 0, got => pure got.reverse
  | patience + 1, got => do
      match ← outcome (fill source capacity) with
      | .error error =>
          if error.isInterruption then collectLine source capacity patience got else throw error
      | .ok [] => pure got.reverse
      | .ok held =>
          match held.span (· != lineFeed) with
          | (front, []) =>
              set ([] : Bytes)
              collectLine source capacity patience (front.reverseAux got)
          | (front, feed :: rest) =>
              set rest
              pure (feed :: front.reverseAux got).reverse

def line (source : Source m) (capacity patience : Nat) : ExceptT IoError (StateT Bytes m) Bytes :=
  collectLine source capacity patience []

end Source

end ChunkStore
