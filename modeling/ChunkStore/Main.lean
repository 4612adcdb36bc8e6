import ChunkStore.FileSystem.Disk.Tree
import ChunkStore.Program

/-!
The program itself: the files of this machine as a file system, and a command run on them.
-/

namespace ChunkStore.Machine

set_option autoImplicit false

def errorParts : IO.Error → UInt32 × String
  | .alreadyExists _ code text | .inappropriateType _ code text | .interrupted _ code text
  | .invalidArgument _ code text | .noFileOrDirectory _ code text | .noSuchThing _ code text
  | .permissionDenied _ code text | .resourceExhausted _ code text => (code, text)
  | .hardwareFault code text | .illegalOperation code text | .otherError code text
  | .protocolError code text | .resourceBusy code text | .resourceVanished code text
  | .timeExpired code text | .unsatisfiedConstraints code text
  | .unsupportedOperation code text => (code, text)
  | .unexpectedEof => (0, "unexpected end of file")
  | .userError text => (0, text)

def plainCode (code : UInt32) : UInt32 := if code < 0x80000000 then code else 0 - code

def knownErrors : List (UInt32 × IoError) :=
  [(1, ⟨.permissionDenied, "Operation not permitted (os error 1)"⟩),
   (2, Disk.Refusal.noEntry.error),
   (4, ⟨.interrupted, "Interrupted system call (os error 4)"⟩),
   (13, ⟨.permissionDenied, "Permission denied (os error 13)"⟩),
   (16, Disk.Refusal.busy.error), (17, Disk.Refusal.entryExists.error),
   (20, Disk.Refusal.notADirectory.error), (21, Disk.Refusal.isADirectory.error),
   (22, Disk.Refusal.invalid.error), (36, Disk.Refusal.nameTooLong.error),
   (39, Disk.Refusal.notEmpty.error), (40, Disk.Refusal.tooManyLinks.error)]

def ioError (error : IO.Error) : IoError :=
  let (code, text) := errorParts error
  match knownErrors.lookup (plainCode code) with
  | some known => known
  | none => .other (if code = 0 then text else s!"{text} (os error {plainCode code})")

def calling {α : Type} (call : IO α) : ExceptT IoError IO α :=
  ExceptT.mk do
    match ← call.toBaseIO with
    | .ok value => pure (.ok value)
    | .error error => pure (.error (ioError error))

def metadata (path : Path) : IO IO.FS.Metadata :=
  (IO.FS.DirEntry.mk path.text "").root.metadata

def isDirectory (metadata : IO.FS.Metadata) : Bool :=
  match metadata.type with
  | .dir => true
  | _ => false

def statusOf (path : Path) (metadata : IO.FS.Metadata) : Status :=
  if isDirectory metadata then .directory path else .file path metadata.byteSize.toNat

def exists? (path : Path) : ExceptT IoError IO Bool := do
  match ← outcome (calling (metadata path)) with
  | .ok _ => pure true
  | .error error => if error.kind = .notFound then pure false else throw error

/-- The children of a directory in the order the machine gives them. Links are followed, and one
that leads nowhere is left out. -/
def list (path : Path) : ExceptT IoError IO (List Status) := do
  let status := statusOf path (← calling (metadata path))
  if ¬ status.isDirectory then return [status]
  let entries ← calling (IO.FS.DirEntry.mk path.text "").root.readDir
  let statuses ← entries.toList.mapM fun entry => do
    let child := path.join entry.fileName
    match ← outcome (calling (metadata child)) with
    | .ok metadata => pure (some (statusOf child metadata))
    | .error error => if error.kind = .notFound then pure none else throw error
  pure (statuses.filterMap id)

def createDirectories (path : Path) : ExceptT IoError IO Unit :=
  if path.text = "" then pure () else calling (IO.FS.createDirAll path.text)

def create (path : Path) : ExceptT IoError IO IO.FS.Handle := do
  match path.parent? with
  | some parent => createDirectories parent
  | none => pure ()
  calling (IO.FS.Handle.mk path.text .write)

def deleteTree (path : Path) : ExceptT IoError IO Bool := do
  match ← outcome (calling (IO.FS.DirEntry.mk path.text "").root.symlinkMetadata) with
  | .ok metadata =>
      calling (if isDirectory metadata then IO.FS.removeDirAll path.text
        else IO.FS.removeFile path.text)
      pure true
  | .error error => if error.kind = .notFound then pure false else throw error

/-- More calls and more paths than any walk on a machine comes to. -/
def unbounded : Nat := Nat.pow 2 62

def files : FileSystem IO IO.FS.Handle IO.FS.Handle where
  exists? := exists?
  list := list
  openReader path := calling (IO.FS.Handle.mk path.text .read)
  read size := do
    let handle ← get
    let bytes ← below (calling (handle.read (USize.ofNat size)))
    pure bytes.data.toList
  create := create
  write piece := do
    let handle ← get
    below (calling (handle.write ⟨piece.toArray⟩))
  flush := do
    let handle ← get
    below (calling handle.flush)
  close _ := pure ()
  createDirectories := createDirectories
  deleteTree := deleteTree
  patience _ := unbounded
  extent := pure unbounded

/-- A random id in its usual form: groups of hexadecimal digits with hyphens between, one digit
for the version and two bits for the variant. -/
def randomId : IO String := do
  let bytes := (← IO.getRandomBytes 16).data.toList
  let marked := bytes.zipIdx.map fun (byte, position) =>
    if position = 6 then (byte &&& 0x0f) ||| 0x40
    else if position = 8 then (byte &&& 0x3f) ||| 0x80
    else byte
  let group (start size : Nat) : String := Bytes.hex ((marked.drop start).take size)
  pure ("-".intercalate [group 0 4, group 4 2, group 6 2, group 8 2, group 10 6])

def surroundings (colors : Bool) : Program.Surroundings IO where
  submission := do
    let id ← randomId
    pure ⟨id, s!"{← IO.monoMsNow} ms"⟩
  clock := IO.monoMsNow
  colors := colors

end ChunkStore.Machine

def main (arguments : List String) : IO UInt32 := do
  let colors ← (← IO.getStdout).isTty
  let report ← ChunkStore.Program.run (ChunkStore.Machine.surroundings colors)
    ChunkStore.Machine.files arguments
  IO.print report.text
  match report.failure with
  | some failure => IO.eprintln failure.line
  | none => pure ()
  pure report.exitCode
