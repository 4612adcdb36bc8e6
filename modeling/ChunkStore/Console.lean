import ChunkStore.Build

/-!
What the command line shows: headers, plans, summaries, checksums and verifications. Headings and
labels are styled by terminal escapes when colours are on and plain otherwise.
-/

namespace ChunkStore.Console

set_option autoImplicit false

inductive Style
  | red
  | green
  | yellow
  | cyan
  | bold
  | dim
deriving DecidableEq, Repr

def Style.code : Style → Nat
  | .red => 31
  | .green => 32
  | .yellow => 33
  | .cyan => 36
  | .bold => 1
  | .dim => 2

/-- One escape for every style, the text, and the escape that ends them all. -/
def styled (colors : Bool) (styles : List Style) (text : String) : String :=
  if colors then
    String.join (styles.map fun style => s!"\x1b[{style.code}m") ++ text ++ "\x1b[0m"
  else text

def programName : String := "readonly-store-builder"

def version : String := "0.1.0"

def versionLine : String := s!"{programName} {version}\n"

def rule : String := String.ofList (List.replicate 50 '─')

def ofLines (lines : List String) : String := String.join (lines.map (· ++ "\n"))

def label (colors : Bool) (text : String) : String := styled colors [.bold] (text ++ ":")

def field (colors : Bool) (name value : String) : String := s!"  {label colors name} {value}"

def heading (colors : Bool) (text : String) : String := styled colors [.green, .bold] text

def header (colors : Bool) (command : String) (fields : List (String × String)) : String :=
  ofLines <|
    ["", s!"{styled colors [.cyan, .bold] programName} {version} {styled colors [.dim] command}",
      styled colors [.dim] rule] ++
    fields.map (fun (name, value) => field colors name value) ++ [""]

def plan (colors : Bool) (inputBytes : Nat) (nodes chunkSize : Nat) (plan : ChunkPlan) : String :=
  ofLines
    [heading colors "Chunk Plan", styled colors [.dim] rule,
     field colors "Input Size" (Size.render inputBytes),
     field colors "Nodes" (toString nodes),
     field colors "Chunk Size" (Size.render chunkSize),
     field colors "Chunks/Node" (Size.grouped plan.chunksPerNode.toNat),
     field colors "Parallelism" (Size.grouped plan.parallelism.toNat), ""]

structure ChecksumLine where
  directory : Path
  digest : Bytes
  files : Nat
  bytes : Nat

def ChecksumLine.ofDigest (node : Checksum.NodeDigest) : ChecksumLine :=
  ⟨node.directory, node.digest, node.files.length, node.bytes⟩

def checksumLine (colors : Bool) (line : ChecksumLine) : String :=
  let contents := s!"({Size.grouped line.files} files, {Size.render line.bytes})"
  s!"  {styled colors [.cyan] line.digest.hex}  {line.directory.text} {contents}"

def checksums (colors : Bool) (lines : List ChecksumLine) : String :=
  ofLines <| heading colors "Checksums" :: lines.map (checksumLine colors)

/-- A length of time in seconds as a 64-bit binary number: the whole seconds plus the rest, which
is rounded before it is added. -/
def seconds? (milliseconds : Nat) : Option Number.Binary64 := do
  let rest ← Number.Binary64.nearest (milliseconds % 1000) 1000
  let whole ← Number.Binary64.nearest (milliseconds / 1000) 1
  whole.add rest

/-- Seconds with one decimal, half-way to the even neighbour. -/
def durationText (milliseconds : Nat) : String :=
  match seconds? milliseconds with
  | none => ""
  | some value =>
    let tenths := Number.roundDiv (10 * value.numerator) value.denominator
    s!"{tenths / 10}.{tenths % 10}s"

structure SummaryView where
  jobId : String
  inputBytes : Nat
  plan : ChunkPlan
  milliseconds : Nat
  output : Path
  checksums : List ChecksumLine

def buildSummary (colors : Bool) (view : SummaryView) : String :=
  let perNode := Size.grouped view.plan.chunksPerNode.toNat
  let total := Size.grouped view.plan.parallelism.toNat
  ofLines
    ["", heading colors "Build Complete", styled colors [.dim] rule,
     field colors "Job" view.jobId,
     field colors "Input Size" (Size.render view.inputBytes),
     field colors "Chunks" s!"{perNode} per node, {total} total",
     field colors "Duration" (durationText view.milliseconds),
     field colors "Output" view.output.text] ++
  (if view.checksums.isEmpty then "" else "\n" ++ checksums colors view.checksums) ++ "\n"

def verdict (colors : Bool) : Checksum.Verification → String
  | .matching _ => styled colors [.green, .bold] "OK"
  | .mismatch _ _ => styled colors [.red, .bold] "MISMATCH"
  | .missing _ => styled colors [.yellow, .bold] "MISSING"

def verificationLine (colors : Bool) (directory : Path) (result : Checksum.Verification) :
    String :=
  let details := match result with
    | .matching digest => styled colors [.dim] digest.hex
    | .mismatch expected actual => s!"expected {expected.hex} got {actual.hex}"
    | .missing actual => s!"no manifest (contents {actual.hex})"
  s!"  {verdict colors result}  {directory.text} {details}"

def verification (colors : Bool) (results : List (Path × Checksum.Verification)) : String :=
  ofLines <| heading colors "Verification" :: results.map fun (directory, result) =>
    verificationLine colors directory result

def failures (results : List (Path × Checksum.Verification)) : Nat :=
  (results.filter fun (_, result) => !result.isMatch).length

/-- The lines for some results, and how many directories failed, counted as the lines are made. -/
def verificationLines (colors : Bool) :
    List (Path × Checksum.Verification) → Nat → List String × Nat
  | [], failed => ([], failed)
  | (directory, result) :: rest, failed =>
      let counted := match result with
        | .matching _ => failed
        | .mismatch _ _ => failed + 1
        | .missing _ => failed + 1
      let (lines, total) := verificationLines colors rest counted
      (verificationLine colors directory result :: lines, total)

def printVerification (colors : Bool) (results : List (Path × Checksum.Verification)) :
    String × Nat :=
  let (lines, failed) := verificationLines colors results 0
  (ofLines (heading colors "Verification" :: lines), failed)

end ChunkStore.Console
