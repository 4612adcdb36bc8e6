import ChunkStore.FileSystem.Sink
import ChunkStore.Job
import ChunkStore.Job.Strategies

/-!
An engine that runs a job by itself in three phases. Mapping reads the input line by line and
routes every record to a partition; spilling writes each partition to a file of its own under the
temp path; reducing reads a spill back, sorts it by key and writes the chunk of that partition.
Every partition gives a chunk, also one without records.
-/

namespace ChunkStore.Local

set_option autoImplicit false

structure RunStats where
  inputFiles : Nat
  recordsIn : Nat
  recordsOut : Nat
  chunksWritten : Nat
deriving DecidableEq, Repr

structure Routed where
  partition : UInt32
  record : Record
deriving DecidableEq, Repr

/-- The records of one partition, in the order in which they were mapped. -/
def bucket (routed : List Routed) (partition : UInt32) : List Record :=
  (routed.filter fun item => item.partition == partition).map (·.record)

variable {m : Type → Type} [Monad m] {Reader Writer : Type}

/-! Input -/

/-- Entries whose name starts with a dot or a low line are no input, and neither is anything
below them. -/
def isIgnored (status : Status) : Bool :=
  status.isHidden || status.name.toList.head? == some '_'

/-- The input files under the directories that wait, in so many steps at most, after those already
found, latest first. A directory's own files come before those of its directories. -/
@[specialize] def collectInputs (files : FileSystem m Reader Writer) :
    Nat → List Path → List Path → ExceptT IoError m (List Path)
  | 0, _, found => pure found.reverse
  | _, [], found => pure found.reverse
  | steps + 1, path :: waiting, found => do
      let entries := (← files.list path).filter fun status => !isIgnored status
      let own := (entries.filter fun status => !status.isDirectory).map (·.path)
      let directories := (entries.filter (·.isDirectory)).map (·.path)
      collectInputs files steps (directories ++ waiting) (own.reverseAux found)

def inputFiles (files : FileSystem m Reader Writer) (root : Path) :
    ExceptT IoError m (List Path) := do
  let extent ← ExceptT.lift files.extent
  collectInputs files (extent + 1) [root] []

/-! Mapping -/

/-- A line without the line feed at its end, and then without a carriage return there. -/
def trimLineEnd (line : Bytes) : Bytes :=
  let unfed := if line.getLast? = some 10 then line.dropLast else line
  if unfed.getLast? = some 13 then unfed.dropLast else unfed

def route (job : JobSpec) (record : Record) : Except EngineError Routed :=
  let partition := job.partitioner.partition record.key job.reduceTasks
  if partition < job.reduceTasks then .ok ⟨partition, record⟩
  else
    let range := s!"{job.reduceTasks.toNat} partitions"
    .error (.failed s!"partitioner '{job.partitioner.name}' returned {partition.toNat} for {range}")

def mapLine (job : JobSpec) (path : Path) (number : Nat) (record : Bytes) :
    Except EngineError (Option Routed) :=
  match job.transform.apply record with
  | .error reason => .error (.transform path number reason)
  | .ok none => .ok none
  | .ok (some mapped) => (route job mapped).map some

/-- What mapping has given so far: how many records went in, and those that came out, the latest
first. -/
structure Mapped where
  recordsIn : Nat
  routed : List Routed
deriving DecidableEq, Repr

/-- Adds a line to what was mapped; a line that is empty without its end counts for nothing. -/
def addLine (job : JobSpec) (path : Path) (number : Nat) (line : Bytes) (mapped : Mapped) :
    Except EngineError Mapped :=
  let record := trimLineEnd line
  if record.isEmpty then .ok mapped
  else (mapLine job path number record).map fun result =>
    ⟨mapped.recordsIn + 1, result.toList ++ mapped.routed⟩

/-- Maps the lines of a source up to its end, the first one with the given number. -/
@[specialize] def mapLines (job : JobSpec) (path : Path) (source : Source m) (patience : Nat) :
    Nat → Nat → Mapped → ExceptT EngineError (StateT Bytes m) Mapped
  | 0, _, mapped => pure mapped
  | steps + 1, number, mapped => do
      let line ← (source.line job.bufferSize patience).adapt .io
      if line.isEmpty then pure mapped
      else
        match addLine job path number line mapped with
        | .error error => throw error
        | .ok mapped => mapLines job path source patience steps (number + 1) mapped

def throughBuffer {ε α : Type} (body : ExceptT ε (StateT Bytes m) α) : ExceptT ε m α :=
  ExceptT.mk do
    let (result, _) ← body.run.run []
    pure result

def mapFile (files : FileSystem m Reader Writer) (job : JobSpec) (path : Path)
    (mapped : Mapped) : ExceptT EngineError m Mapped :=
  files.reading .io path fun patience =>
    throughBuffer (mapLines job path files.read patience patience 1 mapped)

def mapFiles (files : FileSystem m Reader Writer) (job : JobSpec) :
    List Path → Mapped → ExceptT EngineError m Mapped
  | [], mapped => pure mapped
  | path :: rest, mapped => do mapFiles files job rest (← mapFile files job path mapped)

/-! Spilling -/

def spillDirectoryName : String := "map-output"

def fiveDigits (number : Nat) : String :=
  let digits := toString number
  String.ofList (List.replicate (5 - digits.length) '0') ++ digits

def spillDirectory (job : JobSpec) : Path := job.temp.join spillDirectoryName

def spillPath (directory : Path) (partition : UInt32) : Path :=
  directory.join s!"part-{fiveDigits partition.toNat}"

/-- A write of an emission, when all its writes go to one open file. -/
def sendAll (files : FileSystem m Reader Writer) (capacity : Nat) :
    List (ChunkFile × Bytes) → ExceptT IoError (StateT (OpenFile Writer) m) Unit
  | [] => pure ()
  | (_, piece) :: rest => do
      OpenFile.write files capacity piece
      sendAll files capacity rest

def raise {ε : Type} : Option ε → ExceptT ε m Unit
  | none => pure ()
  | some error => throw error

def sendRecords (files : FileSystem m Reader Writer) (capacity : Nat) :
    List Record → ExceptT IoError (StateT (OpenFile Writer) m) Unit
  | [] => pure ()
  | record :: rest => do
      let emission := ChunkWriter.emitRecord .data record
      sendAll files capacity emission.writes
      raise emission.failure
      sendRecords files capacity rest

/-- Creates a file, writes to it through a buffer, and closes it whatever came of it. -/
def writing {α : Type} (files : FileSystem m Reader Writer) (path : Path)
    (body : ExceptT IoError (StateT (OpenFile Writer) m) α) : ExceptT IoError m α := do
  let writer ← files.create path
  ExceptT.mk do
    let (result, after) ← body.run.run { writer }
    OpenFile.close files after
    pure result

def spill (files : FileSystem m Reader Writer) (job : JobSpec) (routed : List Routed)
    (partition : UInt32) : ExceptT IoError m Unit :=
  writing files (spillPath (spillDirectory job) partition) do
    sendRecords files job.bufferSize (bucket routed partition)
    OpenFile.flush files

def spillAll (files : FileSystem m Reader Writer) (job : JobSpec) (routed : List Routed) :
    List UInt32 → ExceptT IoError m Unit
  | [] => pure ()
  | partition :: rest => do
      spill files job routed partition
      spillAll files job routed rest

/-! Reducing -/

structure ChunkPair (Writer : Type) where
  data : OpenFile Writer
  index : OpenFile Writer

namespace ChunkPair

def onData {α : Type} (body : ExceptT IoError (StateT (OpenFile Writer) m) α) :
    ExceptT IoError (StateT (ChunkPair Writer) m) α :=
  onPart ChunkPair.data (fun pair data => { pair with data }) body

def onIndex {α : Type} (body : ExceptT IoError (StateT (OpenFile Writer) m) α) :
    ExceptT IoError (StateT (ChunkPair Writer) m) α :=
  onPart ChunkPair.index (fun pair index => { pair with index }) body

def send (files : FileSystem m Reader Writer) (capacity : Nat) :
    List (ChunkFile × Bytes) → ExceptT IoError (StateT (ChunkPair Writer) m) Unit
  | [] => pure ()
  | (.data, piece) :: rest => do
      onData (OpenFile.write files capacity piece)
      send files capacity rest
  | (.index, piece) :: rest => do
      onIndex (OpenFile.write files capacity piece)
      send files capacity rest

end ChunkPair

/-- Writes the two files of a chunk through buffers and closes both whatever came of it, the
index first. -/
def writeChunk (files : FileSystem m Reader Writer) (job : JobSpec) (chunk : ChunkId)
    (records : List Record) : ExceptT IoError m Unit := do
  let data ← files.create (chunk.dataPath job.output)
  match ← outcome (files.create (chunk.indexPath job.output)) with
  | .error error =>
      ExceptT.lift (files.close data)
      throw error
  | .ok index =>
    let emission := job.writer.emit records
    let body : ExceptT IoError (StateT (ChunkPair Writer) m) Unit := do
      ChunkPair.send files job.bufferSize emission.writes
      raise emission.failure
      ChunkPair.onData (OpenFile.flush files)
      ChunkPair.onIndex (OpenFile.flush files)
    ExceptT.mk do
      let (result, pair) ← body.run.run { data := { writer := data }, index := { writer := index } }
      OpenFile.close files pair.index
      OpenFile.close files pair.data
      pure result

def readSpill (files : FileSystem m Reader Writer) (job : JobSpec) (partition : UInt32) :
    ExceptT IoError m (List Record) :=
  files.reading id (spillPath (spillDirectory job) partition) fun patience =>
    throughBuffer (Record.readAll (Source.buffered files.read job.bufferSize) patience)

def reduce (files : FileSystem m Reader Writer) (job : JobSpec) (partition : UInt32) :
    ExceptT EngineError m Nat := do
  match job.chunkFor partition with
  | none => throw (.failed s!"partition {partition.toNat} has no node")
  | some chunk =>
    let records ← (readSpill files job partition).adapt .io
    (writeChunk files job chunk (Record.sortByKey records)).adapt .io
    pure records.length

def reduceAll (files : FileSystem m Reader Writer) (job : JobSpec) :
    List UInt32 → RunStats → ExceptT EngineError m RunStats
  | [], stats => pure stats
  | partition :: rest, stats => do
      let count ← reduce files job partition
      reduceAll files job rest
        { stats with
          recordsOut := stats.recordsOut + count
          chunksWritten := stats.chunksWritten + 1 }

def partitions (job : JobSpec) : List UInt32 :=
  (List.range job.reduceTasks.toNat).map UInt32.ofNat

def run (files : FileSystem m Reader Writer) (job : JobSpec) : ExceptT EngineError m RunStats := do
  if job.reduceTasks = 0 ∨ job.chunks = 0 then throw (.failed "job has no reduce partitions")
  let inputs ← (inputFiles files job.input).adapt .io
  let mapped ← mapFiles files job inputs ⟨0, []⟩
  let routed := mapped.routed.reverse
  (files.createDirectories (spillDirectory job)).adapt .io
  (spillAll files job routed (partitions job)).adapt .io
  reduceAll files job (partitions job) ⟨inputs.length, mapped.recordsIn, 0, 0⟩

def engine (files : FileSystem m Reader Writer) : JobEngine m where
  name := "local"
  run job := do
    let _ ← run files job

end ChunkStore.Local
