import ChunkStore.Error
import ChunkStore.Json.Reader
import ChunkStore.Json.Writer
import ChunkStore.Size

/-!
The settings of a build. Sizes have bounds, and a configuration exists only if its sizes keep
them and its output is held at least once.
-/

namespace ChunkStore

set_option autoImplicit false

def minChunkSize : Nat := 1

/-- The whole part of 1.9 GiB. -/
def maxChunkSize : Nat := 19 * (1024 * 1024 * 1024) / 10

def maxBufferSize : Nat := 64 * (1024 * 1024)

def defaultChunkSize : Nat := 1024 * 1024 * 1024

def defaultBufferSize : Nat := 65536

inductive ChecksumOrder
  | listing
  | byName
deriving DecidableEq, Repr

namespace ChecksumOrder

def name : ChecksumOrder → String
  | listing => "listing"
  | byName => "by_name"

def ofName? (name : String) : Option ChecksumOrder :=
  [listing, byName].find? fun order => order.name == name

def read : Json.Reader ChecksumOrder := Json.choice ofName?

def json (order : ChecksumOrder) : String := Json.quote order.name

end ChecksumOrder

structure ChecksumOptions where
  bufferSize : Nat := defaultBufferSize
  order : ChecksumOrder := .listing
deriving DecidableEq, Repr

def parseSize (text : String) : Except ConfigError Nat :=
  (Size.parse text).mapError fun normal => .unreadableSize s!"Invalid size value: {normal}"

def validateChunkSize (size : Nat) : Except ConfigError Nat :=
  if minChunkSize ≤ size ∧ size ≤ maxChunkSize then .ok size
  else .error (.chunkSize size minChunkSize maxChunkSize)

def validateBufferSize (size : Nat) : Except ConfigError Nat :=
  if 1 ≤ size ∧ size ≤ maxBufferSize then .ok size else .error (.bufferSize size maxBufferSize)

structure ChecksumArguments where
  sorted : Bool := false
  bufferSize : String := "64KB"
deriving DecidableEq, Repr

def ChecksumArguments.options (arguments : ChecksumArguments) :
    Except ConfigError ChecksumOptions := do
  let bufferSize ← validateBufferSize (← parseSize arguments.bufferSize)
  pure { bufferSize, order := if arguments.sorted then .byName else .listing }

structure BuildSettings where
  input : Path
  temp : Path
  output : Path
  chunkSize : Nat := defaultChunkSize
  replication : UInt32 := 1
  checksumEnabled : Bool := false
  checksum : ChecksumOptions := {}
deriving DecidableEq, Repr

structure BuildSettings.Valid (settings : BuildSettings) : Prop where
  chunkSize_pos : 1 ≤ settings.chunkSize
  chunkSize_le : settings.chunkSize ≤ maxChunkSize
  replication_ne_zero : settings.replication ≠ 0
  bufferSize_pos : 1 ≤ settings.checksum.bufferSize
  bufferSize_le : settings.checksum.bufferSize ≤ maxBufferSize

structure BuildConfig extends BuildSettings where
  valid : toBuildSettings.Valid
deriving DecidableEq

/-- Checks settings: the chunk size first, then the replication, then the buffer size. -/
def BuildSettings.check (settings : BuildSettings) : Except ConfigError BuildConfig :=
  if chunk : minChunkSize ≤ settings.chunkSize ∧ settings.chunkSize ≤ maxChunkSize then
    if held : settings.replication ≠ 0 then
      if buffer : 1 ≤ settings.checksum.bufferSize ∧
          settings.checksum.bufferSize ≤ maxBufferSize then
        .ok ⟨settings, chunk.1, chunk.2, held, buffer.1, buffer.2⟩
      else .error (.bufferSize settings.checksum.bufferSize maxBufferSize)
    else .error (.replicationFactor settings.replication.toNat)
  else .error (.chunkSize settings.chunkSize minChunkSize maxChunkSize)

structure BuildArguments where
  input : Path
  temp : Path
  output : Path
  chunkSize : String
  replication : UInt32
  checksum : Bool
  checksumArguments : ChecksumArguments
deriving DecidableEq, Repr

/-- Checks arguments: the checksum settings first, then the chunk size is read, then the rest. -/
def BuildArguments.config (arguments : BuildArguments) : Except ConfigError BuildConfig := do
  let options ← arguments.checksumArguments.options
  let chunkSize ← parseSize arguments.chunkSize
  BuildSettings.check
    { input := arguments.input
      temp := arguments.temp
      output := arguments.output
      chunkSize
      replication := arguments.replication
      checksumEnabled := arguments.checksum
      checksum := options }

end ChunkStore
