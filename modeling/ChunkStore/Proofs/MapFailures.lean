import ChunkStore.Proofs.ChunkAssignment
import ChunkStore.Proofs.EngineFailures
import ChunkStore.Proofs.FileMapping

/-!
Why mapping fails. It only reads, so a run that fails in it leaves every file as it was, and it ends
at the first line or file that has something wrong with it. An error of the transform tells where:
all that was read before the line it names could be mapped.
-/

namespace ChunkStore.Local

set_option autoImplicit false

open Stateful

/-! Lines -/

/-- The transform takes the line, and what it makes of it goes to a partition there is. A line that
is empty without its end is not given to the transform. -/
def Passes (job : JobSpec) (line : Bytes) : Prop :=
  trimLineEnd line ≠ [] →
    ∃ kept, job.transform.apply (trimLineEnd line) = .ok kept ∧
      ∀ record ∈ kept, (routedBy job record).partition < job.reduceTasks

inductive Refuses (job : JobSpec) (path : Path) (number : Nat) (line : Bytes) : EngineError → Prop
  | rejected {reason : String} (full : trimLineEnd line ≠ [])
      (rejects : job.transform.apply (trimLineEnd line) = .error reason) :
      Refuses job path number line (.transform path number reason)
  | astray {record : Record} {error : EngineError} (full : trimLineEnd line ≠ [])
      (kept : job.transform.apply (trimLineEnd line) = .ok (some record))
      (outside : route job record = .error error) : Refuses job path number line error

theorem route_ok_iff (job : JobSpec) (record : Record) :
    (∃ routed, route job record = .ok routed) ↔
      (routedBy job record).partition < job.reduceTasks := by
  constructor
  · rintro ⟨routed, done⟩
    exact (route_ok done).2
  · intro inside
    exact ⟨routedBy job record, if_pos inside⟩

theorem route_error {job : JobSpec} {record : Record} {error : EngineError}
    (outside : route job record = .error error) : ∃ reason, error = .failed reason := by
  unfold route at outside
  by_cases inside : job.partitioner.partition record.key job.reduceTasks < job.reduceTasks
  · simp [inside] at outside
  · simp only [inside, if_false, Except.error.injEq] at outside
    exact ⟨_, outside.symm⟩

theorem add_line_passes (job : JobSpec) (path : Path) (number : Nat) (line : Bytes)
    (mapped : Mapped) :
    (∃ next, addLine job path number line mapped = .ok next) ↔ Passes job line := by
  rw [addLine, Passes]
  by_cases full : trimLineEnd line = []
  · simp [full]
  · simp only [List.isEmpty_iff, full, if_false, ne_eq, not_false_eq_true, forall_const, mapLine]
    cases job.transform.apply (trimLineEnd line) with
    | error reason => simp [Except.map]
    | ok kept =>
        cases kept with
        | none => simp [Except.map]
        | some record =>
            have routes := route_ok_iff job record
            cases routing : route job record with
            | error error => simpa [routing, Except.map] using routes
            | ok routed => simpa [routing, Except.map] using routes

theorem add_line_refuses (job : JobSpec) (path : Path) (number : Nat) (line : Bytes)
    (mapped : Mapped) (error : EngineError) :
    addLine job path number line mapped = .error error ↔ Refuses job path number line error := by
  rw [addLine]
  constructor
  · intro failed
    by_cases full : trimLineEnd line = []
    · simp [full] at failed
    · simp only [List.isEmpty_iff, full, if_false, mapLine] at failed
      cases applied : job.transform.apply (trimLineEnd line) with
      | error reason =>
          simp only [applied, Except.map, Except.error.injEq] at failed
          rw [← failed]
          exact .rejected full applied
      | ok kept =>
          cases kept with
          | none => simp [applied, Except.map] at failed
          | some record =>
              cases routing : route job record with
              | ok routed => simp [applied, routing, Except.map] at failed
              | error raised =>
                  simp only [applied, routing, Except.map, Except.error.injEq] at failed
                  rw [← failed]
                  exact .astray full applied routing
  · intro refused
    cases refused with
    | rejected full rejects => simp [full, mapLine, rejects, Except.map]
    | astray full kept outside => simp [full, mapLine, kept, outside, Except.map]

/-! Files -/

section files

open Memory

def FilePasses (job : JobSpec) (tree : Tree) (path : Path) : Prop :=
  ∃ contents, Checksum.wholeFile tree path = .ok contents ∧
    ∀ line ∈ linesRead job contents, Passes job line

/-- Why a file cannot be mapped. Its lines count from one, those that are empty too. -/
inductive FileRefuses (job : JobSpec) (tree : Tree) (path : Path) : EngineError → Prop
  | unread {cause : IoError} (fails : Checksum.wholeFile tree path = .error cause) :
      FileRefuses job tree path (.io cause)
  | stopped {contents : Bytes} {before behind : List Bytes} {line : Bytes} {error : EngineError}
      (read : Checksum.wholeFile tree path = .ok contents)
      (lines : linesRead job contents = before ++ line :: behind)
      (passed : ∀ earlier ∈ before, Passes job earlier)
      (refused : Refuses job path (1 + before.length) line error) : FileRefuses job tree path error

theorem add_lines_passes (job : JobSpec) (tree : Tree) (path : Path) (mapped : Mapped) :
    (∃ next, addLinesOf job tree path mapped = .ok next) ↔ FilePasses job tree path := by
  rw [addLinesOf, FilePasses]
  cases Checksum.wholeFile tree path with
  | error cause => simp
  | ok contents =>
      simp only [in_turn_ok_iff (add_line_passes job path), Except.ok.injEq, exists_eq_left']

theorem add_lines_refuses (job : JobSpec) (tree : Tree) (path : Path) (mapped : Mapped)
    (error : EngineError) :
    addLinesOf job tree path mapped = .error error ↔ FileRefuses job tree path error := by
  have turns := in_turn_error_iff (add_line_passes job path) (add_line_refuses job path) 1
  rw [addLinesOf]
  constructor
  · intro failed
    cases read : Checksum.wholeFile tree path with
    | error cause =>
        rw [read] at failed
        rw [← Except.error.inj failed]
        exact .unread read
    | ok contents =>
        rw [read] at failed
        rcases (turns (linesRead job contents) mapped error).mp failed with
          ⟨before, line, behind, lines, passed, refused⟩
        exact .stopped read lines passed refused
  · intro refused
    cases refused with
    | unread fails => rw [fails]
    | stopped read lines passed refused =>
        rw [read]
        exact (turns _ mapped error).mpr ⟨_, _, _, lines, passed, refused⟩

end files

/-! The phase -/

section phases

variable {m : Type → Type} [Monad m] {Reader Writer : Type}

/-- The first phase of a run: finds the input files and maps them. -/
def mapPhase (files : FileSystem m Reader Writer) (job : JobSpec) :
    ExceptT EngineError m (List Path × Mapped) := do
  let inputs ← (inputFiles files job.input).adapt .io
  let mapped ← mapFiles files job inputs ⟨0, []⟩
  pure (inputs, mapped)

/-- The phases that follow: what was mapped is spilled and reduced. -/
def writePhase (files : FileSystem m Reader Writer) (job : JobSpec) (inputs : List Path)
    (mapped : Mapped) : ExceptT EngineError m RunStats := do
  (files.createDirectories (spillDirectory job)).adapt .io
  (spillAll files job mapped.routed.reverse (partitions job)).adapt .io
  reduceAll files job (partitions job) ⟨inputs.length, mapped.recordsIn, 0, 0⟩

variable {σ : Type} [Stateful m σ]

theorem perform_run (files : FileSystem m Reader Writer) {job : JobSpec}
    (parted : ¬ (job.reduceTasks = 0 ∨ job.chunks = 0)) (state : σ) :
    perform (run files job) state =
      match perform (mapPhase files job) state with
      | (.ok (inputs, mapped), after) => perform (writePhase files job inputs mapped) after
      | (.error error, after) => (.error error, after) := by
  rw [run, if_neg parted, mapPhase, perform_bind, perform_bind]
  cases perform ((inputFiles files job.input).adapt EngineError.io) state with
  | mk found between =>
      cases found with
      | error error => rfl
      | ok inputs =>
          simp only
          rw [perform_bind, perform_bind]
          cases perform (mapFiles files job inputs ⟨0, []⟩) between with
          | mk mapping after =>
              cases mapping with
              | error error => rfl
              | ok mapped =>
                  simp only [perform_pure]
                  rfl

theorem perform_run_unparted (files : FileSystem m Reader Writer) {job : JobSpec}
    (unparted : job.reduceTasks = 0 ∨ job.chunks = 0) (state : σ) :
    perform (run files job) state = (.error (.failed "job has no reduce partitions"), state) := by
  rw [run, if_pos unparted, perform_bind_error (perform_throw _ state)]

def NamesRecord (error : EngineError) : Prop :=
  ∃ path record reason, error = .transform path record reason

theorem write_phase_names_none (files : FileSystem m Reader Writer) (job : JobSpec)
    (inputs : List Path) (mapped : Mapped) :
    FailsOnly (fun error => ¬ NamesRecord error) (writePhase files job inputs mapped) := by
  have io {α : Type} (body : ExceptT IoError m α) :
      FailsOnly (fun error => ¬ NamesRecord error) (body.adapt EngineError.io) := by
    apply fails_adapt
    rintro cause ⟨_, _, _, same⟩
    cases same
  have reducing (partition : UInt32) :
      FailsOnly (fun error => ¬ NamesRecord error) (reduce files job partition) := by
    unfold reduce
    cases job.chunkFor partition with
    | none =>
        apply fails_throw
        rintro ⟨_, _, _, same⟩
        cases same
    | some chunk =>
        apply fails_bind (io _)
        intro records
        exact fails_bind (io _) fun _ => fails_pure _
  have reducingAll (partitions : List UInt32) (stats : RunStats) :
      FailsOnly (fun error => ¬ NamesRecord error) (reduceAll files job partitions stats) := by
    induction partitions generalizing stats with
    | nil => exact fails_pure stats
    | cons partition rest induction =>
        unfold reduceAll
        exact fails_bind (reducing partition) fun _ => induction _
  apply fails_bind (io _)
  intro _
  exact fails_bind (io _) fun _ => reducingAll _ _

end phases

open Memory

/-- Why the first phase fails: the input cannot be listed, or a file of it cannot be mapped and all
files before that one could be. -/
inductive MapFails (job : JobSpec) (tree : Tree) : EngineError → Prop
  | unlisted {cause : IoError}
      (fails : (perform (inputFiles files job.input) tree).1 = .error cause) :
      MapFails job tree (.io cause)
  | stopped {earlier later : List Path} {path : Path} {error : EngineError}
      (inputs : (perform (inputFiles files job.input) tree).1 = .ok (earlier ++ path :: later))
      (passed : ∀ file ∈ earlier, FilePasses job tree file)
      (refused : FileRefuses job tree path error) : MapFails job tree error

theorem perform_map_phase (job : JobSpec) (tree : Tree) :
    perform (mapPhase files job) tree =
      (match (perform (inputFiles files job.input) tree).1 with
        | .error cause => .error (.io cause)
        | .ok inputs =>
            (inTurn (fun _ => addLinesOf job tree) 1 inputs ⟨0, []⟩).map (inputs, ·), tree) := by
  have found := tree_of_keeps (fun inv => keeps_input_files inv job.input) tree
  rw [mapPhase, perform_bind, perform_adapt, found]
  cases (perform (inputFiles files job.input) tree).1 with
  | error cause => rfl
  | ok inputs =>
      simp only [map_error_ok, perform_bind, perform_map_files job inputs 1]
      cases inTurn (fun _ => addLinesOf job tree) 1 inputs ⟨0, []⟩ <;> rfl

/-- The first phase leaves the tree as it is. It fails for what comes first and for nothing else. -/
theorem map_phase_fails_iff (job : JobSpec) (tree after : Tree) (error : EngineError) :
    perform (mapPhase files job) tree = (.error error, after) ↔
      after = tree ∧ MapFails job tree error := by
  have turns := in_turn_error_iff (fun _ => add_lines_passes job tree)
    (fun _ => add_lines_refuses job tree) 1
  rw [perform_map_phase, Prod.mk.injEq, eq_comm (a := tree), and_comm, and_congr_right_iff]
  intro _
  constructor
  · intro failed
    cases found : (perform (inputFiles files job.input) tree).1 with
    | error cause =>
        rw [found] at failed
        rw [← Except.error.inj failed]
        exact .unlisted found
    | ok inputs =>
        simp only [found] at failed
        cases mapping : inTurn (fun _ => addLinesOf job tree) 1 inputs ⟨0, []⟩ with
        | ok mapped => simp [mapping, Except.map] at failed
        | error raised =>
            simp only [mapping, Except.map, Except.error.injEq] at failed
            rcases (turns inputs ⟨0, []⟩ raised).mp mapping with
              ⟨earlier, path, later, split, passed, refused⟩
            exact failed ▸ .stopped (split ▸ found) passed refused
  · intro fails
    cases fails with
    | unlisted fails => rw [fails]
    | stopped inputs passed refused =>
        rw [inputs]
        simp only
        rw [(turns _ ⟨0, []⟩ error).mpr ⟨_, _, _, rfl, passed, refused⟩]
        rfl

theorem run_fails_of_map_fails {job : JobSpec} {tree : Tree} {error : EngineError}
    (parted : ¬ (job.reduceTasks = 0 ∨ job.chunks = 0)) (fails : MapFails job tree error) :
    perform (run files job) tree = (.error error, tree) := by
  rw [perform_run files parted, (map_phase_fails_iff job tree tree error).mpr ⟨rfl, fails⟩]

/-! The first offender -/

/-- A line that the transform rejects with a reason, and all that is read before it, which passes.
The record number is that of the line in its file, counted from one with the blank lines. -/
structure Offender (job : JobSpec) (tree : Tree) (path : Path) (record : Nat)
    (reason : String) where
  earlier : List Path
  later : List Path
  contents : Bytes
  before : List Bytes
  line : Bytes
  behind : List Bytes
  room : 0 < job.bufferSize
  inputs : (perform (inputFiles files job.input) tree).1 = .ok (earlier ++ path :: later)
  read : Checksum.wholeFile tree path = .ok contents
  lines : contents.splitOn Source.lineFeed = before ++ line :: behind
  numbered : record = 1 + before.length
  full : trimLineEnd line ≠ []
  rejected : job.transform.apply (trimLineEnd line) = .error reason
  passedBefore : ∀ passed ∈ before, Passes job passed
  passedEarlier : ∀ file ∈ earlier, ∃ others, Checksum.wholeFile tree file = .ok others ∧
    ∀ passed ∈ others.splitOn Source.lineFeed, Passes job passed

theorem lines_read_of_room {job : JobSpec} (room : 0 < job.bufferSize) (contents : Bytes) :
    linesRead job contents = contents.splitOn Source.lineFeed :=
  if_neg (Nat.pos_iff_ne_zero.mp room)

theorem file_passes_iff {job : JobSpec} (room : 0 < job.bufferSize) (tree : Tree) (path : Path) :
    FilePasses job tree path ↔ ∃ contents, Checksum.wholeFile tree path = .ok contents ∧
      ∀ line ∈ contents.splitOn Source.lineFeed, Passes job line := by
  simp only [FilePasses, lines_read_of_room room]

theorem Offender.map_fails {job : JobSpec} {tree : Tree} {path : Path} {record : Nat}
    {reason : String} (offender : Offender job tree path record reason) :
    MapFails job tree (.transform path record reason) := by
  have passed : ∀ file ∈ offender.earlier, FilePasses job tree file := by
    intro file member
    exact (file_passes_iff offender.room tree file).mpr (offender.passedEarlier file member)
  have lines := (lines_read_of_room offender.room offender.contents).trans offender.lines
  apply MapFails.stopped offender.inputs passed
  have refused : Refuses job path (1 + offender.before.length) offender.line
      (.transform path (1 + offender.before.length) reason) :=
    .rejected offender.full offender.rejected
  rw [← offender.numbered] at refused
  apply FileRefuses.stopped offender.read lines offender.passedBefore
  rwa [← offender.numbered]

theorem offender_of_map_fails {job : JobSpec} {tree : Tree} {path : Path} {record : Nat}
    {reason : String} (fails : MapFails job tree (.transform path record reason)) :
    Nonempty (Offender job tree path record reason) := by
  rcases fails with _ | @⟨earlier, later, file, _, inputs, passed, refused⟩
  rcases refused with _ | @⟨contents, before, behind, line, _, read, lines, passedBefore, refused⟩
  have room : 0 < job.bufferSize := by
    by_contra none
    rw [linesRead, if_pos (Nat.eq_zero_of_not_pos none)] at lines
    simp at lines
  rw [lines_read_of_room room] at lines
  cases refused with
  | rejected full rejects =>
      refine ⟨⟨earlier, later, contents, before, line, behind, room, inputs, read, lines, rfl, full,
        rejects, passedBefore, ?_⟩⟩
      intro other member
      exact (file_passes_iff room tree other).mp (passed other member)
  | astray full kept outside =>
      rcases route_error outside with ⟨_, same⟩
      cases same

/-- What fails the first phase fails the run with the tree as it was, and it is what comes first. A
run names a record just when the transform rejects it and all that is read before it passes. -/
theorem failing_mapping_changes_nothing (job : JobSpec) (tree : Tree) :
    (∀ error after, perform (mapPhase files job) tree = (.error error, after) ↔
      after = tree ∧ MapFails job tree error) ∧
    (∀ error, ¬ (job.reduceTasks = 0 ∨ job.chunks = 0) → MapFails job tree error →
      perform (run files job) tree = (.error error, tree)) ∧
    ∀ path record reason after,
      perform (run files job) tree = (.error (.transform path record reason), after) ↔
        ¬ (job.reduceTasks = 0 ∨ job.chunks = 0) ∧ after = tree ∧
          Nonempty (Offender job tree path record reason) := by
  refine ⟨fun error after => map_phase_fails_iff job tree after error,
    fun _ => run_fails_of_map_fails, ?_⟩
  intro path record reason after
  constructor
  · intro failed
    by_cases unparted : job.reduceTasks = 0 ∨ job.chunks = 0
    · rw [perform_run_unparted files unparted] at failed
      cases failed
    refine ⟨unparted, ?_⟩
    rw [perform_run files unparted] at failed
    cases mapping : perform (mapPhase files job) tree with
    | mk result between =>
        cases result with
        | error error =>
            simp only [mapping, Prod.mk.injEq, Except.error.injEq] at failed
            rw [failed.1, failed.2, map_phase_fails_iff] at mapping
            exact ⟨mapping.1, offender_of_map_fails mapping.2⟩
        | ok given =>
            rw [mapping] at failed
            exact absurd ⟨path, record, reason, rfl⟩ (write_phase_names_none files job given.1
              given.2 between _ (congrArg Prod.fst failed))
  · rintro ⟨parted, rfl, ⟨offender⟩⟩
    exact run_fails_of_map_fails parted offender.map_fails

/-- A file that passes, and another whose third line has no tab after a line and a blank one. -/
def badThirdLine : Tree :=
  (Tree.empty.addFile (.ofText "/in/a") (Bytes.ofText "k\tv\n")).addFile (.ofText "/in/b")
    (Bytes.ofText "x\ty\r\n\r\nbad\nz\tw\n")

theorem third_line_refused :
    MapFails JobSpec.twoNodes badThirdLine
        (.transform (.ofText "/in/b") 3 "missing tab separator") ∧
      perform (run files JobSpec.twoNodes) badThirdLine =
        (.error (.transform (.ofText "/in/b") 3 "missing tab separator"), badThirdLine) ∧
      Nonempty (Offender JobSpec.twoNodes badThirdLine (.ofText "/in/b") 3
        "missing tab separator") := by
  rcases failing_mapping_changes_nothing JobSpec.twoNodes badThirdLine with ⟨phase, stops, names⟩
  have mapping : perform (mapPhase files JobSpec.twoNodes) badThirdLine =
      (.error (.transform (.ofText "/in/b") 3 "missing tab separator"), badThirdLine) := by
    decide +kernel
  have fails := ((phase _ _).mp mapping).2
  have run := stops _ (by decide) fails
  exact ⟨fails, run, ((names _ _ _ _).mp run).2.2⟩

end ChunkStore.Local
