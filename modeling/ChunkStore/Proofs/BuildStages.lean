import ChunkStore.Build
import ChunkStore.Proofs.Recording

/-!
The stages of a build. Whatever file system and engine a build is given, and wherever their calls
fail, it makes the calls of its stages in order and stops with the first stage that fails; its
error is that of this stage. The calls are told by a record, and to record them changes nothing.
-/

namespace ChunkStore

set_option autoImplicit false

open Stateful

variable {m : Type → Type} [Monad m] {σ : Type} [Stateful m σ] {Reader Writer : Type}
  (files : FileSystem m Reader Writer)

/-- Of a size scan. -/
def Call.Lists : Call → Prop
  | .list _ => True
  | _ => False

/-- Of checksums: directories are listed, files are read, and files are written. -/
def Call.Sums : Call → Prop
  | .list _ | .openReader _ | .read _ | .create _ | .write _ | .flush | .close => True
  | _ => False

/-! Scanning -/

namespace Scan

theorem records_visit (steps : Nat) (waiting : List Pending) (totals : ScanTotals) :
    RecordsOver (Traced Call.Lists id) (visit files steps waiting totals)
      (visit files.recorded steps waiting totals) := by
  -- along the steps that are left: a listing that fails is passed over or ends the scan
  induction steps generalizing waiting totals with
  | zero => exact .pure (.ok _)
  | succ steps induction =>
      cases waiting with
      | nil => exact .pure (.ok _)
      | cons work waiting =>
          rw [visit, visit]
          apply (traced_noted (.list work.path) trivial (files.list work.path)).traced_catch
          intro given
          cases given with
          | ok statuses => exact (induction _ _).mono fun _ _ traced => Or.inl traced
          | error error =>
              simp only
              split
              · exact (induction _ _).mono fun _ _ traced => Or.inl traced
              · exact .throw (Or.inr ⟨rfl, error, rfl, rfl⟩)

theorem records_size (path : Path) :
    RecordsOver (Traced Call.Lists id) (size files path) (size files.recorded path) := by
  have totals : RecordsOver (Traced Call.Lists id) (totals files path)
      (totals files.recorded path) := by
    apply (traced_lift files.extent).traced_bind
    intro extent
    exact records_visit files _ _ _
  apply totals.traced_bind
  intro totals
  exact .pure (.ok _)

end Scan

/-! Checksums -/

namespace Checksum

theorem records_hash_source (size patience : Nat) (hasher : Md5.Hasher) :
    RecordsBelow (Traced Call.Sums id) (hashSource files.read size patience hasher)
      (hashSource files.recorded.read size patience hasher) := by
  -- along the patience: a read that was interrupted is made again and has its own event
  induction patience generalizing hasher with
  | zero => exact .pure (.ok _)
  | succ patience induction =>
      rw [hashSource, hashSource]
      apply (traced_noted_with (.read size) trivial (files.read size)).traced_catch
      intro given
      cases given with
      | error error =>
          simp only
          split
          · exact (induction _).mono fun _ _ traced => Or.inl traced
          · exact .throw (Or.inr ⟨rfl, error, rfl, rfl⟩)
      | ok piece =>
          cases piece with
          | nil => exact .pure (Or.inl (.ok _))
          | cons byte bytes => exact (induction _).mono fun _ _ traced => Or.inl traced

theorem records_of_file (path : Path) (size : Nat) :
    RecordsOver (Traced Call.Sums ChecksumError.cause) (ofFile files path size)
      (ofFile files.recorded path size) := by
  rw [ofFile, ofFile]
  apply traced_reading files
  · intro error
    rfl
  · exact trivial
  · intro patience
    have hashing := records_hash_source files size patience .initial
    apply (hashing.traced_adapt (.read path) ChecksumError.cause fun _ => rfl).traced_bind
    intro hasher
    exact .pure (.ok _)

theorem records_hash_files (size : Nat) (statuses : List Status) (state : Md5.Hasher × Nat) :
    RecordsOver (Traced Call.Sums ChecksumError.cause) (hashFiles files size statuses state)
      (hashFiles files.recorded size statuses state) := by
  induction statuses generalizing state with
  | nil => exact .pure (.ok _)
  | cons status rest induction =>
      rw [hashFiles, hashFiles]
      apply (records_of_file files status.path size).traced_bind
      intro digested
      exact induction _

theorem records_listing (path : Path) :
    RecordsOver (Traced Call.Sums ChecksumError.cause)
      (ExceptT.adapt (ChecksumError.list path) (files.list path))
      (ExceptT.adapt (ChecksumError.list path) (files.recorded.list path)) :=
  (traced_noted (.list path) trivial (files.list path)).traced_adapt _ _ fun _ => rfl

theorem records_of_directory (options : ChecksumOptions) (directory : Path) :
    RecordsOver (Traced Call.Sums ChecksumError.cause) (ofDirectory files options directory)
      (ofDirectory files.recorded options directory) := by
  apply (records_listing files directory).traced_bind
  intro entries
  apply (records_hash_files files _ _ _).traced_bind
  intro hashed
  exact .pure (.ok _)

theorem records_write_pieces (pieces : List Bytes) :
    RecordsBelow (Traced Call.Sums id) (files.writePieces pieces)
      (files.recorded.writePieces pieces) := by
  induction pieces with
  | nil => exact .pure (.ok _)
  | cons piece rest induction =>
      rw [FileSystem.writePieces, FileSystem.writePieces]
      split
      · apply (traced_noted_with (.write piece) trivial (files.write piece)).traced_bind
        intro written
        exact induction
      · exact induction

theorem records_write_whole (path : Path) (pieces : List Bytes) (flushed : Bool) :
    RecordsOver (Traced Call.Sums id) (files.writeWhole path pieces flushed)
      (files.recorded.writeWhole path pieces flushed) := by
  apply (traced_noted (.create path) trivial (files.create path)).traced_bind
  intro writer
  apply traced_closing files writer trivial
  apply (records_write_pieces files pieces).traced_bind
  intro written
  split
  · exact traced_noted_with .flush trivial files.flush
  · exact .pure (.ok _)

theorem records_aggregate (options : ChecksumOptions) (directory : Path) :
    RecordsOver (Traced Call.Sums ChecksumError.cause) (aggregate files options directory)
      (aggregate files.recorded options directory) := by
  apply (records_of_directory files options directory).traced_bind
  intro node
  have writing := records_write_whole files (manifestPath directory) [node.digest] true
  apply (writing.traced_adapt (.write (manifestPath directory)) ChecksumError.cause
    fun _ => rfl).traced_bind
  intro written
  exact .pure (.ok _)

theorem records_aggregate_each (options : ChecksumOptions) (directories : List Path)
    (done : List NodeDigest) :
    RecordsOver (Traced Call.Sums ChecksumError.cause)
      (List.mapM.loop (aggregate files options) directories done)
      (List.mapM.loop (aggregate files.recorded options) directories done) := by
  induction directories generalizing done with
  | nil => exact .pure (.ok _)
  | cons directory rest induction =>
      apply (records_aggregate files options directory).traced_bind
      intro node
      exact induction _

theorem records_aggregate_all (options : ChecksumOptions) (output : Path) :
    RecordsOver (Traced Call.Sums ChecksumError.cause) (aggregateAll files options output)
      (aggregateAll files.recorded options output) := by
  have directories : RecordsOver (Traced Call.Sums ChecksumError.cause)
      (nodeDirectories files output) (nodeDirectories files.recorded output) := by
    apply (records_listing files output).traced_bind
    intro entries
    exact .pure (.ok _)
  apply directories.traced_bind
  intro directories
  exact records_aggregate_each files options directories []

end Checksum

namespace Builder

variable (engine : JobEngine m) (builder : Builder) (submission : Submission)

/-! Stages -/

/-- What a build does next once nothing was found at its output path. The engine is run when the
size of the input is known. -/
inductive Stage
  | clearing
  | scanning
  | running (inputBytes : Nat)
  | summing (inputBytes : Nat)

/-- How a build gets to a stage, in which state and after which calls. -/
inductive Reached (start : σ) : Stage → σ → List Event → Prop
  | checked {state : σ}
      (absent : perform (files.exists? builder.config.output) start = (.ok false, state)) :
      Reached start .clearing state [.call (.exists? builder.config.output) none]
  | cleared {before state : σ} {events : List Event} {found : Bool}
      (reached : Reached start .clearing before events)
      (deleted : perform (files.deleteTree builder.config.temp) before = (.ok found, state)) :
      Reached start .scanning state (events ++ [.call (.deleteTree builder.config.temp) none])
  | scanned {before state : σ} {events calls : List Event} {inputBytes : Nat}
      (reached : Reached start .scanning before events)
      (sized : perform (Scan.size files builder.config.input) before = (.ok inputBytes, state))
      (traced : Traced Call.Lists id (.ok inputBytes : Except IoError Nat) calls) :
      Reached start (.running inputBytes) state (events ++ calls)
  | ran {before state : σ} {events : List Event} {inputBytes : Nat}
      (reached : Reached start (.running inputBytes) before events)
      (done : perform (engine.run (builder.job submission (builder.plan inputBytes))) before =
        (.ok (), state)) :
      Reached start (.summing inputBytes) state
        (events ++ [.run (builder.job submission (builder.plan inputBytes)) none])

/-- How a build ends: with the first stage that fails, or when all of them are done. Where no
checksums are asked for, the run of the engine is the last stage. -/
inductive Ended (start : σ) : Except BuildError BuildSummary → σ → List Event → Prop
  | unchecked {after : σ} {error : IoError}
      (asked : perform (files.exists? builder.config.output) start = (.error error, after)) :
      Ended start
        (.error (.precondition builder.config.output s!"could not check output path: {error.text}"))
        after [.call (.exists? builder.config.output) (some error)]
  | present {after : σ}
      (asked : perform (files.exists? builder.config.output) start = (.ok true, after)) :
      Ended start (.error (.precondition builder.config.output "output directory already exists"))
        after [.call (.exists? builder.config.output) none]
  | uncleared {before after : σ} {events : List Event} {error : IoError}
      (reached : Reached files engine builder submission start .clearing before events)
      (failed : perform (files.deleteTree builder.config.temp) before = (.error error, after)) :
      Ended start (.error (.failed (.clearTemp builder.config.temp error))) after
        (events ++ [.call (.deleteTree builder.config.temp) (some error)])
  | unscanned {before after : σ} {events calls : List Event} {error : IoError}
      (reached : Reached files engine builder submission start .scanning before events)
      (failed : perform (Scan.size files builder.config.input) before = (.error error, after))
      (traced : Traced Call.Lists id (.error error : Except IoError Nat) calls) :
      Ended start (.error (.failed (.sizeScan builder.config.input error))) after (events ++ calls)
  | stopped {before after : σ} {events : List Event} {inputBytes : Nat} {error : EngineError}
      (reached : Reached files engine builder submission start (.running inputBytes) before events)
      (failed : perform (engine.run (builder.job submission (builder.plan inputBytes))) before =
        (.error error, after)) :
      Ended start (.error (.failed (.engine submission.id error))) after
        (events ++ [.run (builder.job submission (builder.plan inputBytes)) (some error)])
  | unsummed {before after : σ} {events calls : List Event} {inputBytes : Nat}
      {error : ChecksumError}
      (enabled : builder.config.checksumEnabled = true)
      (reached : Reached files engine builder submission start (.summing inputBytes) before events)
      (failed : perform (Checksum.aggregateAll files builder.config.checksum builder.config.output)
        before = (.error error, after))
      (traced : Traced Call.Sums ChecksumError.cause
        (.error error : Except ChecksumError (List Checksum.NodeDigest)) calls) :
      Ended start (.error (.failed (.checksum error))) after (events ++ calls)
  | summed {before after : σ} {events calls : List Event} {inputBytes : Nat}
      {nodes : List Checksum.NodeDigest}
      (enabled : builder.config.checksumEnabled = true)
      (reached : Reached files engine builder submission start (.summing inputBytes) before events)
      (done : perform (Checksum.aggregateAll files builder.config.checksum builder.config.output)
        before = (.ok nodes, after))
      (traced : Traced Call.Sums ChecksumError.cause
        (.ok nodes : Except ChecksumError (List Checksum.NodeDigest)) calls) :
      Ended start (.ok ⟨submission.id, inputBytes, builder.plan inputBytes, nodes⟩) after
        (events ++ calls)
  | plain {after : σ} {events : List Event} {inputBytes : Nat}
      (disabled : builder.config.checksumEnabled = false)
      (reached : Reached files engine builder submission start (.summing inputBytes) after events) :
      Ended start (.ok ⟨submission.id, inputBytes, builder.plan inputBytes, []⟩) after events

/-! Staging -/

section staging

variable {files engine builder submission} {start state : σ} {events : List Event}

/-- What a stage comes to: the build goes on, or it ends there. -/
def Continues {α : Type} (files : FileSystem m Reader Writer) (engine : JobEngine m)
    (builder : Builder) (submission : Submission) (start : σ) (next : α → Stage)
    (events : List Event) : Except BuildError α → σ → List Event → Prop
  | .ok value, after, later =>
      Reached files engine builder submission start (next value) after (events ++ later)
  | .error error, after, later =>
      Ended files engine builder submission start (.error error) after (events ++ later)

theorem continues_of {ε α : Type} {post : Except ε α → List Event → Prop} {body : ExceptT ε m α}
    {recording : ExceptT ε (StateT (List Event) m) α} {next : α → Stage}
    {change : ε → BuildError} (records : RecordsOver post body recording)
    (succeeding : ∀ value after later, perform body state = (.ok value, after) →
      post (.ok value) later →
        Reached files engine builder submission start (next value) after (events ++ later))
    (failing : ∀ error after later, perform body state = (.error error, after) →
      post (.error error) later →
        Ended files engine builder submission start (.error (change error)) after
          (events ++ later)) :
    RecordsAt (fun record state => (record, state))
      (Continues files engine builder submission start next events) (ExceptT.adapt change body)
      (ExceptT.adapt change recording) state := by
  apply (records.performed state).adapt.mono
  rintro result after later ⟨given, ⟨done, holds⟩, rfl⟩
  cases given with
  | ok value => exact succeeding value after later done holds
  | error error => exact failing error after later done holds

theorem continues_bind {α : Type} {first : ExceptT BuildError m α}
    {firstRecording : ExceptT BuildError (StateT (List Event) m) α} {next : α → Stage}
    {rest : α → ExceptT BuildError m BuildSummary}
    {restRecording : α → ExceptT BuildError (StateT (List Event) m) BuildSummary}
    (before : RecordsAt (fun record state => (record, state))
      (Continues files engine builder submission start next events) first firstRecording state)
    (after : ∀ value between more,
      Reached files engine builder submission start (next value) between more →
        RecordsAt (fun record state => (record, state)) (fun result final later =>
          Ended files engine builder submission start result final (more ++ later))
          (rest value) (restRecording value) between) :
    RecordsAt (fun record state => (record, state)) (fun result final later =>
      Ended files engine builder submission start result final (events ++ later))
      (first >>= rest) (firstRecording >>= restRecording) state := by
  apply before.bind
  · intro value between later reached
    apply (after value between _ reached).mono
    intro result final last ended
    rwa [← List.append_assoc]
  · intro error between later ended
    exact ended

theorem records_absent : RecordsAt (fun record state => (record, state))
    (Continues files engine builder submission state (fun _ => .clearing) [])
    (requireAbsent files builder.config.output)
    (requireAbsent files.recorded builder.config.output) state := by
  have asking := (records_noted (.call (.exists? builder.config.output))
    (files.exists? builder.config.output)).performed state
  apply asking.adapt_bind
  · rintro found between events ⟨asked, rfl⟩
    cases found with
    | true => exact .throw (.present asked)
    | false => exact .pure (.checked asked)
  · rintro error between events ⟨asked, rfl⟩
    exact .unchecked asked

/-- The last stage makes the calls of the checksums, or none where these are not asked for. -/
theorem records_summing {inputBytes : Nat}
    (reached : Reached files engine builder submission start (.summing inputBytes) state events) :
    RecordsAt (fun record state => (record, state)) (fun result final later =>
        Ended files engine builder submission start result final (events ++ later))
      (do
        let nodes ← ExceptT.adapt (fun error => .failed (.checksum error))
          (checksums files builder.config)
        pure ⟨submission.id, inputBytes, builder.plan inputBytes, nodes⟩)
      (do
        let nodes ← ExceptT.adapt (fun error => .failed (.checksum error))
          (checksums files.recorded builder.config)
        pure ⟨submission.id, inputBytes, builder.plan inputBytes, nodes⟩) state := by
  cases enabled : builder.config.checksumEnabled with
  | true =>
      have summing := Checksum.records_aggregate_all files builder.config.checksum
        builder.config.output
      rw [checksums, checksums, if_pos enabled, if_pos enabled]
      apply (summing.performed state).adapt_bind
      · rintro nodes after later ⟨done, traced⟩
        apply RecordsAt.pure
        rw [List.append_nil]
        exact .summed enabled reached done traced
      · rintro error after later ⟨failed, traced⟩
        exact .unsummed enabled reached failed traced
  | false =>
      have off : ¬builder.config.checksumEnabled = true := by
        rw [enabled]
        exact Bool.false_ne_true
      have nothing : RecordsAt (fun record state => (record, state)) (fun result after later =>
          result = .ok [] ∧ after = state ∧ later = []) (checksums files builder.config)
          (checksums files.recorded builder.config) state := by
        rw [checksums, checksums, if_neg off, if_neg off]
        exact .pure ⟨rfl, rfl, rfl⟩
      apply nothing.adapt_bind
      · rintro nodes after later ⟨isNone, rfl, rfl⟩
        rw [Except.ok.inj isNone]
        apply RecordsAt.pure
        rw [List.append_nil, List.append_nil]
        exact .plain enabled reached
      · rintro error after later ⟨isNone, _⟩
        exact absurd isNone (by simp)

/-! What a build comes to -/

def jobsRun (events : List Event) : List JobSpec :=
  events.filterMap fun event =>
    match event with
    | .run job _ => some job
    | .call _ _ => none

theorem jobs_run_append (events later : List Event) :
    jobsRun (events ++ later) = jobsRun events ++ jobsRun later := List.filterMap_append

theorem jobs_run_traced {ε α : Type} {allowed : Call → Prop} {cause : ε → IoError}
    {result : Except ε α} (traced : Traced allowed cause result events) : jobsRun events = [] := by
  rw [jobsRun, List.filterMap_eq_nil_iff]
  intro event member
  obtain ⟨call, failure, rfl, _⟩ := traced.calls event member
  rfl

def Stage.jobs (builder : Builder) (submission : Submission) : Stage → List JobSpec
  | .clearing | .scanning | .running _ => []
  | .summing inputBytes => [builder.job submission (builder.plan inputBytes)]

theorem Reached.jobs_run {stage : Stage}
    (reached : Reached files engine builder submission start stage state events) :
    jobsRun events = stage.jobs builder submission := by
  induction reached with
  | checked absent => rfl
  | cleared reached deleted induction => rw [jobs_run_append, induction]; rfl
  | scanned reached sized traced induction =>
      rw [jobs_run_append, induction, jobs_run_traced traced]
      rfl
  | ran reached done induction => rw [jobs_run_append, induction]; rfl

/-- The engine is run for the plan of what the scan before it has counted. -/
theorem Reached.sized {inputBytes : Nat}
    (reached : Reached files engine builder submission start (.running inputBytes) state events) :
    ∃ cleared,
      perform (Scan.size files builder.config.input) cleared = (.ok inputBytes, state) := by
  cases reached with
  | scanned reached sized traced => exact ⟨_, sized⟩

theorem Reached.ran_sized {inputBytes : Nat}
    (reached : Reached files engine builder submission start (.summing inputBytes) state events) :
    ∃ cleared scanned,
      perform (Scan.size files builder.config.input) cleared = (.ok inputBytes, scanned) := by
  cases reached with
  | ran before done =>
      obtain ⟨cleared, sized⟩ := before.sized
      exact ⟨cleared, _, sized⟩

theorem Reached.absent {stage : Stage}
    (reached : Reached files engine builder submission start stage state events) :
    (perform (files.exists? builder.config.output) start).1 = .ok false := by
  induction reached with
  | checked absent => rw [absent]
  | cleared reached deleted induction => exact induction
  | scanned reached sized traced induction => exact induction
  | ran reached done induction => exact induction

variable {result : Except BuildError BuildSummary}

/-- A build ends before it has done anything just where its existence check fails or finds
something, and then the check is all that was called. -/
theorem Ended.refused (ended : Ended files engine builder submission start result state events)
    (found : (perform (files.exists? builder.config.output) start).1 ≠ .ok false) :
    (∃ reason, result = .error (.precondition builder.config.output reason)) ∧
      state = (perform (files.exists? builder.config.output) start).2 ∧
      ∃ failure, events = [.call (.exists? builder.config.output) failure] := by
  cases ended with
  | unchecked asked => exact ⟨⟨_, rfl⟩, by rw [asked], _, rfl⟩
  | present asked => exact ⟨⟨_, rfl⟩, by rw [asked], _, rfl⟩
  | uncleared reached => exact absurd reached.absent found
  | unscanned reached => exact absurd reached.absent found
  | stopped reached => exact absurd reached.absent found
  | unsummed enabled reached => exact absurd reached.absent found
  | summed enabled reached => exact absurd reached.absent found
  | plain disabled reached => exact absurd reached.absent found

theorem Ended.not_refused (ended : Ended files engine builder submission start result state events)
    (absent : (perform (files.exists? builder.config.output) start).1 = .ok false)
    (error : BuildError) (failed : result = .error error) : ∃ cause, error = .failed cause := by
  cases ended with
  | unchecked asked => exact absurd (absent.symm.trans (by rw [asked])) (by simp)
  | present asked => exact absurd (absent.symm.trans (by rw [asked])) (by simp)
  | summed => exact absurd failed (by simp)
  | plain => exact absurd failed (by simp)
  | uncleared => exact ⟨_, (Except.error.inj failed).symm⟩
  | unscanned => exact ⟨_, (Except.error.inj failed).symm⟩
  | stopped => exact ⟨_, (Except.error.inj failed).symm⟩
  | unsummed => exact ⟨_, (Except.error.inj failed).symm⟩

theorem Ended.jobs_run (ended : Ended files engine builder submission start result state events) :
    jobsRun events = [] ∨ ∃ inputBytes cleared scanned,
      perform (Scan.size files builder.config.input) cleared = (.ok inputBytes, scanned) ∧
        jobsRun events = [builder.job submission (builder.plan inputBytes)] := by
  cases ended with
  | unchecked asked => exact Or.inl rfl
  | present asked => exact Or.inl rfl
  | uncleared reached failed =>
      rw [jobs_run_append, reached.jobs_run]
      exact Or.inl rfl
  | unscanned reached failed traced =>
      rw [jobs_run_append, reached.jobs_run, jobs_run_traced traced]
      exact Or.inl rfl
  | stopped reached failed =>
      obtain ⟨cleared, sized⟩ := reached.sized
      rw [jobs_run_append, reached.jobs_run]
      exact Or.inr ⟨_, _, _, sized, rfl⟩
  | unsummed enabled reached failed traced =>
      obtain ⟨cleared, scanned, sized⟩ := reached.ran_sized
      rw [jobs_run_append, reached.jobs_run, jobs_run_traced traced]
      exact Or.inr ⟨_, _, _, sized, rfl⟩
  | summed enabled reached done traced =>
      obtain ⟨cleared, scanned, sized⟩ := reached.ran_sized
      rw [jobs_run_append, reached.jobs_run, jobs_run_traced traced]
      exact Or.inr ⟨_, _, _, sized, rfl⟩
  | plain disabled reached =>
      obtain ⟨cleared, scanned, sized⟩ := reached.ran_sized
      exact Or.inr ⟨_, _, _, sized, reached.jobs_run⟩

end staging

/-- What is said of the end of a build, of the state that it leaves and of the calls that it made:
it went through its stages up to the first that failed; it was refused just where its existence
check failed or found something, and then has done nothing else; and it had at most one job run,
which is that of the plan for the scanned size. -/
structure Staged (start : σ) (result : Except BuildError BuildSummary) (after : σ)
    (events : List Event) : Prop where
  ended : Ended files engine builder submission start result after events
  refused_iff : (∃ reason, result = .error (.precondition builder.config.output reason)) ↔
    (perform (files.exists? builder.config.output) start).1 ≠ .ok false
  pre_build_iff : ∀ error, result = .error error →
    (error.isPreBuild = true ↔
      (perform (files.exists? builder.config.output) start).1 ≠ .ok false)
  untouched : (perform (files.exists? builder.config.output) start).1 ≠ .ok false →
    after = (perform (files.exists? builder.config.output) start).2 ∧
      ∃ failure, events = [.call (.exists? builder.config.output) failure]
  unchanged : (perform (files.exists? builder.config.output) start).1 ≠ .ok false →
    (∀ state, (perform (files.exists? builder.config.output) state).2 = state) → after = start
  jobs : jobsRun events = [] ∨ ∃ inputBytes cleared scanned job,
    perform (Scan.size files builder.config.input) cleared = (.ok inputBytes, scanned) ∧
      jobsRun events = [job] ∧
      job.reduceTasks = (ChunkPlan.compute (UInt64.ofNat inputBytes) builder.store.replication
        builder.cluster.size (UInt64.ofNat builder.config.chunkSize)).parallelism ∧
      job.chunks = (ChunkPlan.compute (UInt64.ofNat inputBytes) builder.store.replication
        builder.cluster.size (UInt64.ofNat builder.config.chunkSize)).chunksPerNode

theorem Ended.staged {start after : σ} {result : Except BuildError BuildSummary}
    {events : List Event}
    (ended : Ended files engine builder submission start result after events) :
    Staged files engine builder submission start result after events where
  ended
  refused_iff := by
    constructor
    · rintro ⟨reason, refused⟩ absent
      obtain ⟨cause, failed⟩ := ended.not_refused absent _ refused
      exact absurd failed (by simp)
    · intro found
      exact (ended.refused found).1
  pre_build_iff := by
    intro error failed
    constructor
    · intro preBuild absent
      obtain ⟨cause, rfl⟩ := ended.not_refused absent error failed
      exact absurd preBuild (by simp [BuildError.isPreBuild])
    · intro found
      obtain ⟨reason, refused⟩ := (ended.refused found).1
      rw [Except.error.inj (failed.symm.trans refused)]
      rfl
  untouched := fun found => (ended.refused found).2
  unchanged := by
    intro found asks
    rw [(ended.refused found).2.1, asks]
  jobs := by
    rcases ended.jobs_run with none | ⟨inputBytes, cleared, scanned, sized, one⟩
    · exact Or.inl none
    · exact Or.inr ⟨inputBytes, cleared, scanned, _, sized, one, rfl, rfl⟩

/-- A build performs its stages in order, whatever comes of the calls, and its record tells them. -/
theorem records_build (state : σ) : RecordsAt (fun record state => (record, state))
    (Ended files engine builder submission state) (build files engine builder submission)
    (build files.recorded engine.recorded builder submission) state := by
  unfold build
  apply continues_bind records_absent
  intro _ checked events reached
  apply continues_bind
  · apply continues_of (records_noted (.call (.deleteTree builder.config.temp)) _)
    · rintro found cleared later done rfl
      exact .cleared reached done
    · rintro error cleared later failed rfl
      exact .uncleared reached failed
  intro _ cleared events reached
  apply continues_bind
  · apply continues_of (Scan.records_size files builder.config.input)
    · intro inputBytes scanned later done traced
      exact .scanned reached done traced
    · intro error scanned later failed traced
      exact .unscanned reached failed traced
  intro inputBytes scanned events reached
  apply continues_bind
  · apply continues_of (records_noted (.run (builder.job submission (builder.plan inputBytes))) _)
    · rintro _ ran later done rfl
      exact .ran reached done
    · rintro error ran later failed rfl
      exact .stopped reached failed
  intro _ ran events reached
  exact records_summing reached

/-- Whatever a file system and an engine do, a build comes to the same result in the same state
with and without a record of the calls, and the record shows its stages in their order. -/
theorem build_is_staged (state : σ) :
    ∃ result after events,
      perform (build files engine builder submission) state = (result, after) ∧
      (∀ record, perform (build files.recorded engine.recorded builder submission) (record, state) =
        (result, record ++ events, after)) ∧
      Staged files engine builder submission state result after events := by
  obtain ⟨events, ended, recorded⟩ := records_build files engine builder submission state
  exact ⟨_, _, events, rfl, recorded, ended.staged files engine builder submission⟩

end Builder

end ChunkStore
