import ChunkStore.Proofs.LocalRun
import ChunkStore.Proofs.PartitionLayout

/-!
Why a run fails. An engine fails by itself for a job without partitions, for a partition without a
node and for a partitioner that leaves its range. A job that is planned for its cluster and spread
within its range has none of these, and every job of a builder is so; a run of it fails only for
what lies outside the engine, which is a file system or the transform.
-/

namespace ChunkStore

set_option autoImplicit false

open Stateful

/-! Kinds of errors -/

namespace Stateful

variable {m : Type → Type} [Monad m] {σ ε δ α β : Type} [Stateful m σ]

/-- Whatever error ends a computation, from whatever state, is of one kind. -/
def FailsOnly (kind : ε → Prop) (body : ExceptT ε m α) : Prop :=
  ∀ state error, (perform body state).1 = .error error → kind error

variable {kind : ε → Prop}

theorem fails_pure (value : α) : FailsOnly kind (pure value : ExceptT ε m α) := by
  intro state error failed
  rw [perform_pure] at failed
  exact absurd failed (by simp)

theorem fails_throw {error : ε} (isKind : kind error) :
    FailsOnly kind (throw error : ExceptT ε m α) := by
  intro state raised failed
  rw [perform_throw] at failed
  rwa [← Except.error.inj failed]

theorem fails_bind {first : ExceptT ε m α} {next : α → ExceptT ε m β}
    (before : FailsOnly kind first) (after : ∀ value, FailsOnly kind (next value)) :
    FailsOnly kind (first >>= next) := by
  intro state error failed
  rw [perform_bind] at failed
  cases result : perform first state with
  | mk outcome between =>
      rw [result] at failed
      cases outcome with
      | ok value => exact after value between error failed
      | error raised =>
          have begun : (perform first state).1 = .error raised := by rw [result]
          rw [← Except.error.inj failed]
          exact before state raised begun

theorem fails_adapt {change : δ → ε} (changed : ∀ error, kind (change error))
    (body : ExceptT δ m α) : FailsOnly kind (ExceptT.adapt change body) := by
  intro state error failed
  rw [perform_adapt] at failed
  cases result : (perform body state).1 with
  | ok value =>
      rw [result] at failed
      exact absurd failed (by simp)
  | error cause =>
      rw [result] at failed
      rw [← Except.error.inj failed]
      exact changed cause

theorem fails_reading {Reader Writer : Type} (files : FileSystem m Reader Writer)
    {wrap : IoError → ε} (wrapped : ∀ error, kind (wrap error)) (path : Path)
    {body : Nat → ExceptT ε (StateT Reader m) α}
    (read : ∀ patience, FailsOnly kind (body patience)) :
    FailsOnly kind (files.reading wrap path body) := by
  intro state error failed
  rw [perform_reading] at failed
  cases opened : perform (files.openReader path) state with
  | mk outcome after =>
      rw [opened] at failed
      cases outcome with
      | ok reader => exact read _ (reader, after) error failed
      | error cause =>
          rw [← Except.error.inj failed]
          exact wrapped cause

theorem fails_through_buffer {body : ExceptT ε (StateT Bytes m) α}
    (buffered : FailsOnly kind body) : FailsOnly kind (Local.throughBuffer body) := by
  intro state error failed
  rw [Local.perform_through_buffer] at failed
  exact buffered ([], state) error failed

end Stateful

/-! Jobs that are served -/

/-- A job that is planned for its cluster and whose partitioner keeps within its range. -/
structure JobSpec.Served (job : JobSpec) : Prop where
  planned : job.Planned
  ranged : ∀ key, job.partitioner.partition key job.reduceTasks < job.reduceTasks

/-- An error that does not come from the engine itself: a file system refuses a call, or the
transform of the job refuses a record. -/
def JobSpec.FromOutside (job : JobSpec) : EngineError → Prop
  | .failed _ => False
  | .transform _ _ reason => ∃ record, job.transform.apply record = .error reason
  | .io _ => True

namespace Local

variable {job : JobSpec}

theorem route_in_range (served : job.Served) (record : Record) :
    route job record = .ok (routedBy job record) :=
  if_pos (served.ranged record.key)

theorem map_line_fails (served : job.Served) {path : Path} {number : Nat} {line : Bytes}
    {error : EngineError} (failed : mapLine job path number line = .error error) :
    job.FromOutside error := by
  unfold mapLine at failed
  cases applied : job.transform.apply line with
  | error reason =>
      rw [applied] at failed
      rw [← Except.error.inj failed]
      exact ⟨line, applied⟩
  | ok kept =>
      rw [applied] at failed
      cases kept with
      | none => exact absurd failed (by simp)
      | some record =>
          simp only [route_in_range served] at failed
          exact absurd failed (by simp [Except.map])

theorem add_line_fails (served : job.Served) {path : Path} {number : Nat} {line : Bytes}
    {mapped : Mapped} {error : EngineError}
    (failed : addLine job path number line mapped = .error error) : job.FromOutside error := by
  unfold addLine at failed
  by_cases empty : (trimLineEnd line).isEmpty = true
  · simp only [empty, if_true] at failed
    exact absurd failed (by simp)
  · simp only [empty] at failed
    cases result : mapLine job path number (trimLineEnd line) with
    | ok routed =>
        rw [result] at failed
        exact absurd failed (by simp [Except.map])
    | error cause =>
        rw [result] at failed
        rw [← Except.error.inj failed]
        exact map_line_fails served result

variable {m : Type → Type} [Monad m] {σ Reader Writer : Type} [Stateful m σ]

theorem fails_io {α : Type} (body : ExceptT IoError m α) :
    FailsOnly job.FromOutside (body.adapt EngineError.io) :=
  fails_adapt (fun _ => trivial) body

theorem map_lines_fails (served : job.Served) (path : Path) (source : Source m)
    (patience steps number : Nat) (mapped : Mapped) :
    FailsOnly job.FromOutside (mapLines job path source patience steps number mapped) := by
  -- A step fails in reading a line or in adding it; then the rest is mapped by one step less.
  induction steps generalizing number mapped with
  | zero => exact fails_pure mapped
  | succ steps induction =>
      unfold mapLines
      apply fails_bind (fails_io _)
      intro line
      split
      · exact fails_pure mapped
      · split
        next error refused => exact fails_throw (add_line_fails served refused)
        next more _ => exact induction (number + 1) more

theorem map_file_fails (served : job.Served) (files : FileSystem m Reader Writer) (path : Path)
    (mapped : Mapped) : FailsOnly job.FromOutside (mapFile files job path mapped) := by
  unfold mapFile
  refine fails_reading files (fun _ => trivial) path ?_
  intro patience
  exact fails_through_buffer (map_lines_fails served path files.read patience patience 1 mapped)

theorem map_files_fails (served : job.Served) (files : FileSystem m Reader Writer)
    (paths : List Path) (mapped : Mapped) :
    FailsOnly job.FromOutside (mapFiles files job paths mapped) := by
  induction paths generalizing mapped with
  | nil => exact fails_pure mapped
  | cons path rest induction =>
      unfold mapFiles
      exact fails_bind (map_file_fails served files path mapped) induction

theorem reduce_fails (served : job.Served) (files : FileSystem m Reader Writer)
    {partition : UInt32} (inside : partition < job.reduceTasks) :
    FailsOnly job.FromOutside (reduce files job partition) := by
  obtain ⟨chunk, found⟩ := JobSpec.chunk_for_present served.planned inside
  unfold reduce
  rw [found]
  apply fails_bind (fails_io _)
  intro records
  apply fails_bind (fails_io _)
  intro _
  exact fails_pure records.length

theorem reduce_all_fails (served : job.Served) (files : FileSystem m Reader Writer)
    {partitions : List UInt32} (inside : ∀ partition ∈ partitions, partition < job.reduceTasks)
    (stats : RunStats) : FailsOnly job.FromOutside (reduceAll files job partitions stats) := by
  induction partitions generalizing stats with
  | nil => exact fails_pure stats
  | cons partition rest induction =>
      rw [List.forall_mem_cons] at inside
      unfold reduceAll
      apply fails_bind (reduce_fails served files inside.1)
      intro count
      exact induction inside.2 _

theorem has_partitions (planned : job.Planned) : ¬ (job.reduceTasks = 0 ∨ job.chunks = 0) := by
  have positive : 0 < job.chunks.toNat := UInt32.le_iff_toNat_le.mp planned.chunks
  rintro (none | none)
  · have tasks := planned.tasks
    rw [none] at tasks
    have nodes := List.length_pos_iff.mpr job.cluster.nodes_ne_nil
    exact absurd tasks (Nat.mul_pos nodes positive).ne
  · exact UInt32.pos_iff_ne_zero.mp planned.chunks none

/-- A run of a job that is served fails only for what lies outside the engine. -/
theorem run_fails (served : job.Served) (files : FileSystem m Reader Writer) :
    FailsOnly job.FromOutside (run files job) := by
  rw [run, if_neg (has_partitions served.planned)]
  apply fails_bind (fails_io _)
  intro inputs
  apply fails_bind (map_files_fails served files inputs ⟨0, []⟩)
  intro mapped
  apply fails_bind (fails_io _)
  intro _
  apply fails_bind (fails_io _)
  intro _
  apply reduce_all_fails served files
  intro partition member
  exact (mem_partitions job partition).mp member

theorem engine_fails (served : job.Served) (files : FileSystem m Reader Writer) :
    FailsOnly job.FromOutside ((engine files).run job) :=
  fails_bind (run_fails served files) fun _ => fails_pure ()

end Local

/-! Jobs of a builder -/

theorem Partitioner.md5_ranged (key : Bytes) {count : UInt32} (some : count ≠ 0) :
    Partitioner.md5.partition key count < count := by
  have divisor : (if count = 0 then 1 else count) = count := if_neg some
  simp only [Partitioner.md5, divisor]
  exact UInt32.mod_lt _ (UInt32.pos_iff_ne_zero.mpr some)

namespace Builder

theorem job_served (builder : Builder) (submission : Submission) {plan : ChunkPlan}
    (spreads : plan.Spreads builder.cluster.nodes.length) (hashed : builder.partitioner = .md5) :
    (builder.job submission plan).Served := by
  have planned := builder.job_planned_of_spread submission spreads
  have some := fun none => Local.has_partitions planned (Or.inl none)
  refine ⟨planned, ?_⟩
  intro key
  change builder.partitioner.partition key _ < _
  rw [hashed]
  exact Partitioner.md5_ranged key some

theorem chunk_size_in_word (builder : Builder) : 1 ≤ UInt64.ofNat builder.config.chunkSize := by
  have positive := builder.config.valid.chunkSize_pos
  have bound : builder.config.chunkSize < UInt64.size :=
    Nat.lt_of_le_of_lt builder.config.valid.chunkSize_le (by decide)
  rw [UInt64.le_iff_toNat_le, UInt64.toNat_ofNat_of_lt' bound]
  exact positive

/-- The engine never fails by itself on a job of a builder, whose cluster, store and settings were
checked when they were made, and each step of the plan of that job is exact. -/
theorem engine_never_fails_itself {m : Type → Type} [Monad m] {σ Reader Writer : Type}
    [Stateful m σ] (files : FileSystem m Reader Writer) (builder : Builder)
    (submission : Submission) (inputBytes : UInt64) (hashed : builder.partitioner = .md5)
    (fewer : builder.cluster.nodes.length < UInt32.size) :
    (∀ state reason, (perform ((Local.engine files).run
        (builder.job submission (builder.plan inputBytes.toNat))) state).1 ≠
          .error (.failed reason)) ∧
      ChunkPlan.checked inputBytes builder.store.replication builder.cluster.size
          (UInt64.ofNat builder.config.chunkSize) =
        some (builder.plan inputBytes.toNat) := by
  have plan : builder.plan inputBytes.toNat = ChunkPlan.compute inputBytes
      builder.store.replication builder.cluster.size (UInt64.ofNat builder.config.chunkSize) := by
    rw [Builder.plan, UInt64.ofNat_toNat]
  rw [plan]
  constructor
  · have served := builder.job_served submission
      (ChunkPlan.spreads_compute inputBytes builder.store.replication
        (UInt64.ofNat builder.config.chunkSize) fewer) hashed
    intro state reason failed
    exact Local.engine_fails served files state (.failed reason) failed
  · exact ChunkPlan.checked_eq_compute inputBytes
      (UInt32.pos_iff_ne_zero.mpr builder.store.replication_ne_zero)
      (UInt32.pos_iff_ne_zero.mpr (Cluster.size_ne_zero fewer)) builder.chunk_size_in_word

/-- Two nodes and as much input as a word can count, on whatever tree. -/
theorem full_pair_engine_never_fails_itself :
    pairBuilder.partitioner = .md5 ∧ pairBuilder.cluster.nodes.length < UInt32.size ∧
      (∀ tree reason, (perform ((Local.engine Memory.files).run
          (pairBuilder.job ⟨"job", "now"⟩ (pairBuilder.plan 18446744073709551615))) tree).1 ≠
            .error (.failed reason)) ∧
      ChunkPlan.checked 18446744073709551615 1 2 1073741824 = some ⟨2147483647, 4294967294⟩ := by
  have fewer : pairBuilder.cluster.nodes.length < UInt32.size := by decide
  obtain ⟨never, exactly⟩ := engine_never_fails_itself Memory.files pairBuilder ⟨"job", "now"⟩
    18446744073709551615 rfl fewer
  refine ⟨rfl, fewer, never, exactly.trans ?_⟩
  have plan : pairBuilder.plan (18446744073709551615 : UInt64).toNat =
      ⟨2147483647, 4294967294⟩ := by decide
  rw [plan]

end Builder

end ChunkStore
