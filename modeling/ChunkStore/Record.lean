import ChunkStore.FileSystem.Source

/-!
Records and their written form. A field is written as its length in four bytes, the most
significant first, and then its bytes; a record is its key followed by its value. Reading accepts
exactly what writing produces.
-/

namespace ChunkStore

set_option autoImplicit false

structure Record where
  key : Bytes
  value : Bytes
deriving DecidableEq, Repr

namespace Record

/-- A field longer than this has no written form. -/
def maxField : Nat := UInt32.size - 1

def lengthBytes (length : Nat) : Bytes := Bytes.ofWord (UInt32.ofNat length)

def encodeField (field : Bytes) : Bytes := lengthBytes field.length ++ field

def encode (record : Record) : Bytes := encodeField record.key ++ encodeField record.value

def encodeAll (records : List Record) : Bytes := records.flatMap encode

def size (record : Record) : Nat := 8 + record.key.length + record.value.length

def le (left right : Record) : Bool :=
  if left.key = right.key then Bytes.le left.value right.value else Bytes.le left.key right.key

/-- Records in the order of their keys; records of one key keep their order. -/
def sortByKey (records : List Record) : List Record :=
  records.mergeSort fun left right => Bytes.le left.key right.key

/-! Reading -/

variable {m : Type → Type} [Monad m]

def truncatedHeader : IoError := .unexpectedEnd "truncated frame header"

def withoutValue : IoError := .unexpectedEnd "record without value"

/-- The four bytes of a length, or nothing at a clean end. The bytes so far come with the latest
first; no read takes more than is missing, so four reads are enough. -/
def header (source : Source m) : Nat → Bytes → ExceptT IoError m (Option Bytes)
  | 0, got => pure (some got.reverse)
  | missing + 1, got => do
      match ← source (4 - got.length) with
      | [] => if got.isEmpty then pure none else throw truncatedHeader
      | piece =>
          let more := piece.reverseAux got
          if 4 ≤ more.length then pure (some more.reverse) else header source missing more

def field (source : Source m) (patience : Nat) : ExceptT IoError m (Option Bytes) := do
  match ← header source 4 [] with
  | none => pure none
  | some length => return some (← source.exactly patience (Bytes.toNat length))

@[specialize] def collect (source : Source m) (patience : Nat) :
    Nat → List Record → ExceptT IoError m (List Record)
  | 0, got => pure got.reverse
  | steps + 1, got => do
      match ← field source patience with
      | none => pure got.reverse
      | some key =>
        match ← field source patience with
        | none => throw withoutValue
        | some value => collect source patience steps (⟨key, value⟩ :: got)

/-- All records of a source that needs no more than so many reads. -/
def readAll (source : Source m) (patience : Nat) : ExceptT IoError m (List Record) :=
  collect source patience patience []

end Record

def Source.ofBytes (limit : Option Nat) : Source (StateM Bytes) := fun size =>
  ExceptT.mk fun rest =>
    let allowed := match limit with
      | none => size
      | some most => min size most
    (.ok (rest.take allowed), rest.drop allowed)

def Record.decodeAll (limit : Option Nat) (bytes : Bytes) : Except IoError (List Record) :=
  ((Record.readAll (Source.ofBytes limit) (bytes.length + 1)).run.run bytes).1

end ChunkStore
