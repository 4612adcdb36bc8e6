import ChunkStore.Proofs.MapFailures
import ChunkStore.Proofs.ReadSchedules

/-!
The buffer of a job. Spilling, reading spills back and writing chunks go through buffers of the
job's size and do not depend on it. Mapping does: through a buffer without room every input file
seems empty, and a run with one succeeds without any record.
-/

namespace ChunkStore

set_option autoImplicit false

open Stateful

def JobSpec.withBuffer (job : JobSpec) (size : Nat) : JobSpec := { job with bufferSize := size }

/-! Reading through any buffer -/

section reading

variable {m : Type → Type} [Monad m] {σ : Type} [Stateful m σ] {source : Source m}
  {ahead : Bytes → σ → Prop}

/-- A buffer without room is never used, so that what is ahead of it is what is ahead below. -/
theorem Source.buffered_without_room (delivers : source.Delivers ahead) :
    Source.Delivers (Source.buffered source 0)
      fun bytes (state : Bytes × σ) => state.1 = [] ∧ ahead bytes state.2 := by
  rintro bytes ⟨held, below⟩ size ⟨rfl, ready⟩ positive
  rcases delivers bytes below size ready positive with
    ⟨piece, rest, after, read, split, left, short, ends⟩
  refine ⟨piece, rest, ([], after), ?_, split, ⟨rfl, left⟩, short, ends⟩
  rw [Source.buffered, perform_bind, perform_get]
  simp only [List.isEmpty_nil, Nat.zero_le, and_self, if_true, perform_below, read]

theorem Source.buffered_hands_on (delivers : source.Delivers ahead) (capacity : Nat) :
    ∃ behind : Bytes → Bytes × σ → Prop, Source.Delivers (Source.buffered source capacity) behind ∧
      ∀ bytes state, ahead bytes state → behind bytes ([], state) := by
  rcases Nat.eq_zero_or_pos capacity with rfl | room
  · exact ⟨_, Source.buffered_without_room delivers, fun _ _ ready => ⟨rfl, ready⟩⟩
  · exact ⟨_, Source.buffered_delivers delivers room, fun _ _ => Source.held_ahead_of_empty⟩

theorem Record.read_all_decodes (delivers : source.Delivers ahead) {bytes : Bytes} {state : σ}
    (holds : ahead bytes state) {patience : Nat} (patient : bytes.length ≤ patience) :
    (perform (Record.readAll source patience) state).1 = Record.decodeAll none bytes := by
  rcases Record.records_and_tail bytes with
    ⟨records, tail, writable, split, nothing | ⟨error, broken⟩⟩
  · rw [nothing, List.append_nil] at split
    rw [split] at holds patient ⊢
    rcases Record.read_all_delivers delivers patience records state holds writable patient with
      ⟨after, read, _⟩
    rw [read, Record.decode_encode none (by simp) records writable]
  · rw [split] at holds patient ⊢
    rcases Record.read_all_broken delivers patience records writable broken state holds patient with
      ⟨after, read⟩
    rw [read, Record.decode_broken writable broken]

end reading

namespace Local

open Memory

/-! The stages after mapping -/

theorem perform_read_spill (job : JobSpec) (partition : UInt32) (tree : Tree) :
    perform (readSpill files job partition) tree =
      ((Checksum.wholeFile tree (spillPath (spillDirectory job) partition)).bind
        (Record.decodeAll none), tree) := by
  rw [tree_of_keeps (fun inv => keeps_read_spill inv job partition) tree]
  apply congrArg (·, tree)
  rw [readSpill, perform_reading_tree, Checksum.wholeFile]
  cases tree.openReader (spillPath (spillDirectory job) partition) with
  | error error => rfl
  | ok reader =>
      simp only [perform_through_buffer]
      cases reader with
      | failing => exact read_all_failing job.bufferSize 0 tree
      | rest contents =>
          rcases Source.buffered_hands_on (reader_delivers tree) job.bufferSize with
            ⟨behind, delivers, ready⟩
          exact Record.read_all_decodes delivers (ready contents (.rest contents, tree) rfl)
            (Nat.le_succ _)

section buffers

variable (job : JobSpec) (size : Nat)

theorem perform_spill_all_with_buffer (routed : List Routed) (partitions : List UInt32)
    (tree : Tree) :
    perform (spillAll files (job.withBuffer size) routed partitions) tree =
      perform (spillAll files job routed partitions) tree := by
  induction partitions generalizing tree with
  | nil => rfl
  | cons partition rest induction =>
      have spilled : perform (spill files (job.withBuffer size) routed partition) tree =
          perform (spill files job routed partition) tree := by
        rw [perform_spill_eq, perform_spill_eq]
        rfl
      rw [spillAll, spillAll, perform_bind, perform_bind, spilled]
      simp only [induction]

theorem perform_reduce_with_buffer (partition : UInt32) (tree : Tree) :
    perform (reduce files (job.withBuffer size) partition) tree =
      perform (reduce files job partition) tree := by
  have chunk : (job.withBuffer size).chunkFor partition = job.chunkFor partition := rfl
  rw [reduce, reduce, chunk]
  cases job.chunkFor partition with
  | none => rfl
  | some chunk =>
      have read : perform (readSpill files (job.withBuffer size) partition) tree =
          perform (readSpill files job partition) tree := by
        rw [perform_read_spill, perform_read_spill]
        rfl
      have written (records : List Record) (tree : Tree) :
          perform (writeChunk files (job.withBuffer size) chunk records) tree =
            perform (writeChunk files job chunk records) tree := by
        rw [perform_write_chunk_eq, perform_write_chunk_eq]
        rfl
      simp only [perform_bind, perform_adapt, read, written]

theorem perform_reduce_all_with_buffer (partitions : List UInt32) (stats : RunStats)
    (tree : Tree) :
    perform (reduceAll files (job.withBuffer size) partitions stats) tree =
      perform (reduceAll files job partitions stats) tree := by
  induction partitions generalizing stats tree with
  | nil => rfl
  | cons partition rest induction =>
      rw [reduceAll, reduceAll, perform_bind, perform_bind, perform_reduce_with_buffer]
      simp only [induction]

theorem perform_write_phase_with_buffer (inputs : List Path) (mapped : Mapped) (tree : Tree) :
    perform (writePhase files (job.withBuffer size) inputs mapped) tree =
      perform (writePhase files job inputs mapped) tree := by
  have parts : partitions (job.withBuffer size) = partitions job := rfl
  have place : spillDirectory (job.withBuffer size) = spillDirectory job := rfl
  rw [writePhase, writePhase, parts, place]
  simp only [perform_bind, perform_adapt, perform_spill_all_with_buffer,
    perform_reduce_all_with_buffer]

/-! Mapping -/

variable {size}

theorem perform_map_phase_alike {other : Nat} (alike : size = 0 ↔ other = 0) (tree : Tree) :
    perform (mapPhase files (job.withBuffer size)) tree =
      perform (mapPhase files (job.withBuffer other)) tree := by
  have lines (contents : Bytes) :
      linesRead (job.withBuffer size) contents = linesRead (job.withBuffer other) contents := by
    rw [linesRead, linesRead]
    exact if_congr alike rfl rfl
  have added : addLinesOf (job.withBuffer size) tree = addLinesOf (job.withBuffer other) tree := by
    funext path mapped
    rw [addLinesOf, addLinesOf]
    simp only [lines]
    rfl
  rw [perform_map_phase, perform_map_phase, added]
  rfl

theorem in_turn_kept {α τ ε : Type} {step : Nat → α → τ → Except ε τ}
    (kept : ∀ number element state next, step number element state = .ok next → next = state)
    {number : Nat} {elements : List α} {state last : τ}
    (done : inTurn step number elements state = .ok last) : last = state := by
  induction elements generalizing number state with
  | nil => exact (Except.ok.inj done).symm
  | cons element rest induction =>
      rw [inTurn] at done
      cases stepped : step number element state with
      | error error =>
          rw [stepped] at done
          cases done
      | ok next =>
          rw [stepped] at done
          rw [induction done, kept number element state next stepped]

theorem map_phase_ok {tree after : Tree} {inputs : List Path} {mapped : Mapped}
    (done : perform (mapPhase files job) tree = (.ok (inputs, mapped), after)) :
    after = tree ∧ (perform (inputFiles files job.input) tree).1 = .ok inputs ∧
      inTurn (fun _ => addLinesOf job tree) 1 inputs ⟨0, []⟩ = .ok mapped := by
  rw [perform_map_phase, Prod.mk.injEq] at done
  refine ⟨done.2.symm, ?_⟩
  have phase := done.1
  cases found : (perform (inputFiles files job.input) tree).1 with
  | error error =>
      rw [found] at phase
      cases phase
  | ok paths =>
      rw [found] at phase
      cases mapping : inTurn (fun _ => addLinesOf job tree) 1 paths ⟨0, []⟩ with
      | error error =>
          simp only [mapping] at phase
          cases phase
      | ok given =>
          simp only [mapping, Except.map, Except.ok.injEq, Prod.mk.injEq] at phase
          rw [← phase.1, mapping, phase.2]
          exact ⟨rfl, rfl⟩

/-- Without room in the buffer nothing is mapped. -/
theorem map_phase_without_room {tree after : Tree} {inputs : List Path} {mapped : Mapped}
    (done : perform (mapPhase files (job.withBuffer 0)) tree = (.ok (inputs, mapped), after)) :
    mapped = ⟨0, []⟩ := by
  rcases map_phase_ok (job.withBuffer 0) done with ⟨_, _, mapping⟩
  apply in_turn_kept _ mapping
  intro _ path before next added
  rw [addLinesOf] at added
  cases read : Checksum.wholeFile tree path with
  | error error =>
      rw [read] at added
      cases added
  | ok contents =>
      rw [read] at added
      exact (Except.ok.inj added).symm

theorem map_phase_of_no_records (room : 0 < size) {tree after : Tree} {inputs : List Path}
    {mapped : Mapped} (none : mapped.recordsIn = 0)
    (done : perform (mapPhase files (job.withBuffer size)) tree = (.ok (inputs, mapped), after)) :
    mapped = ⟨0, []⟩ ∧
      perform (mapPhase files (job.withBuffer 0)) tree = (.ok (inputs, ⟨0, []⟩), after) := by
  rcases map_phase_ok (job.withBuffer size) done with ⟨unchanged, found, mapping⟩
  have performed := perform_map_files (job.withBuffer size) inputs 1 ⟨0, []⟩ tree
  rw [mapping] at performed
  have adds : Adds (job.withBuffer size) (linesOf tree inputs) ⟨0, []⟩ mapped :=
    (map_files_ok room performed).2
  have noLines : linesOf tree inputs = [] := by
    have counted := adds.recordsIn
    rw [none] at counted
    exact List.length_eq_zero_iff.mp (by omega)
  have noRouted := adds.routed
  rw [noLines] at noRouted
  have empty : mapped = ⟨0, []⟩ := by
    cases mapped
    simp_all [keptOf]
  refine ⟨empty, ?_⟩
  have passes := (in_turn_ok_iff (fun _ => add_lines_passes (job.withBuffer size) tree) 1 inputs
    ⟨0, []⟩).mp ⟨mapped, mapping⟩
  have passesEmpty : ∀ path ∈ inputs, FilePasses (job.withBuffer 0) tree path := by
    intro path member
    rcases passes path member with ⟨contents, read, _⟩
    exact ⟨contents, read, by simp [linesRead, JobSpec.withBuffer]⟩
  rcases (in_turn_ok_iff (fun _ => add_lines_passes (job.withBuffer 0) tree) 1 inputs
    ⟨0, []⟩).mpr passesEmpty with ⟨last, mappingEmpty⟩
  have phase : perform (mapPhase files (job.withBuffer 0)) tree = (.ok (inputs, last), tree) := by
    have foundEmpty : (perform (inputFiles files (job.withBuffer 0).input) tree).1 = .ok inputs :=
      found
    rw [perform_map_phase, foundEmpty]
    simp only [mappingEmpty, Except.map]
  rw [phase, map_phase_without_room job phase, unchanged]

end buffers

/-! Whole runs -/

theorem reduce_all_counts {m : Type → Type} [Monad m] {Reader Writer σ : Type} [Stateful m σ]
    {source : FileSystem m Reader Writer} {job : JobSpec} {partitions : List UInt32}
    {before stats : RunStats} {state after : σ}
    (done : perform (reduceAll source job partitions before) state = (.ok stats, after)) :
    stats.recordsIn = before.recordsIn := by
  induction partitions generalizing before state with
  | nil =>
      rw [reduceAll, perform_pure, Prod.mk.injEq, Except.ok.injEq] at done
      rw [done.1]
  | cons partition rest induction =>
      rw [reduceAll] at done
      rcases bind_ok done with ⟨count, between, _, others⟩
      exact (induction others).trans rfl

theorem write_phase_counts {m : Type → Type} [Monad m] {Reader Writer σ : Type} [Stateful m σ]
    {source : FileSystem m Reader Writer} {job : JobSpec} {inputs : List Path} {mapped : Mapped}
    {stats : RunStats} {state after : σ}
    (done : perform (writePhase source job inputs mapped) state = (.ok stats, after)) :
    stats.recordsIn = mapped.recordsIn := by
  rw [writePhase] at done
  rcases bind_ok done with ⟨_, _, _, spilling⟩
  rcases bind_ok spilling with ⟨_, _, _, reducing⟩
  exact reduce_all_counts reducing

/-- A run that succeeds has mapped its input, and it has counted the records while it did. -/
theorem run_phases {job : JobSpec} {tree after : Tree} {stats : RunStats}
    (done : perform (run files job) tree = (.ok stats, after)) :
    ¬ (job.reduceTasks = 0 ∨ job.chunks = 0) ∧
      ∃ inputs mapped, perform (mapPhase files job) tree = (.ok (inputs, mapped), tree) ∧
        perform (writePhase files job inputs mapped) tree = (.ok stats, after) ∧
        stats.recordsIn = mapped.recordsIn := by
  by_cases unparted : job.reduceTasks = 0 ∨ job.chunks = 0
  · rw [perform_run_unparted files unparted] at done
    cases done
  · rw [perform_run files unparted] at done
    cases mapping : perform (mapPhase files job) tree with
    | mk result between =>
        cases result with
        | error error =>
            rw [mapping] at done
            cases done
        | ok given =>
            rw [mapping] at done
            have unchanged := (map_phase_ok job mapping).1
            subst unchanged
            exact ⟨unparted, given.1, given.2, rfl, done, write_phase_counts done⟩

/-- Runs of a job do not depend on the size of its buffer while there is room in it, and a run
without room counts no record. A run that succeeds is therefore the same without room just when it
has found none. -/
theorem run_with_buffer (job : JobSpec) (tree : Tree) :
    (∀ size other, (size = 0 ↔ other = 0) →
      perform (run files (job.withBuffer size)) tree =
        perform (run files (job.withBuffer other)) tree) ∧
    (∀ stats after, perform (run files (job.withBuffer 0)) tree = (.ok stats, after) →
      stats.recordsIn = 0) ∧
    ∀ size stats after, perform (run files (job.withBuffer size)) tree = (.ok stats, after) →
      (perform (run files (job.withBuffer 0)) tree = (.ok stats, after) ↔ stats.recordsIn = 0) := by
  have countsNone : ∀ stats after,
      perform (run files (job.withBuffer 0)) tree = (.ok stats, after) → stats.recordsIn = 0 := by
    intro stats after done
    rcases run_phases done with ⟨_, inputs, mapped, mapping, _, counted⟩
    rw [counted, map_phase_without_room job mapping]
  refine ⟨?_, countsNone, ?_⟩
  · intro size other alike
    by_cases unparted : job.reduceTasks = 0 ∨ job.chunks = 0
    · have refused (size : Nat) := perform_run_unparted files
        (show (job.withBuffer size).reduceTasks = 0 ∨ (job.withBuffer size).chunks = 0 from
          unparted) tree
      rw [refused, refused]
    · have phases (size : Nat) := perform_run files (show
        ¬ ((job.withBuffer size).reduceTasks = 0 ∨ (job.withBuffer size).chunks = 0) from unparted)
        tree
      rw [phases, phases, perform_map_phase_alike job alike]
      simp only [perform_write_phase_with_buffer]
  · intro size stats after done
    refine ⟨countsNone stats after, ?_⟩
    intro none
    rcases Nat.eq_zero_or_pos size with rfl | room
    · exact done
    rcases run_phases done with ⟨parted, inputs, mapped, mapping, writing, counted⟩
    rcases map_phase_of_no_records job room (counted.symm.trans none) mapping with
      ⟨empty, mappingEmpty⟩
    have partedEmpty : ¬ ((job.withBuffer 0).reduceTasks = 0 ∨ (job.withBuffer 0).chunks = 0) :=
      parted
    rw [perform_run files partedEmpty, mappingEmpty]
    simp only
    rw [perform_write_phase_with_buffer, ← perform_write_phase_with_buffer job size, ← empty,
      writing]

def oneLine : Tree := Tree.empty.addFile (.ofText "/in/a") (Bytes.ofText "k\tv\n")

/-- One byte of room is enough for the record of a line, and without it the run still succeeds. -/
theorem one_line_lost :
    (perform (run files (JobSpec.twoNodes.withBuffer 1)) oneLine).1 = .ok ⟨1, 1, 1, 2⟩ ∧
      (perform (run files (JobSpec.twoNodes.withBuffer 0)) oneLine).1 = .ok ⟨1, 0, 0, 2⟩ := by
  constructor <;> decide +kernel

theorem one_line_with_buffer :
    perform (run files (JobSpec.twoNodes.withBuffer 1)) oneLine =
        perform (run files (JobSpec.twoNodes.withBuffer 16)) oneLine ∧
      (∃ stats after, perform (run files (JobSpec.twoNodes.withBuffer 0)) oneLine =
        (.ok stats, after) ∧ stats.recordsIn = 0) ∧
      ∃ after, perform (run files (JobSpec.twoNodes.withBuffer 16)) oneLine =
          (.ok ⟨1, 1, 1, 2⟩, after) ∧
        perform (run files (JobSpec.twoNodes.withBuffer 0)) oneLine ≠
          (.ok ⟨1, 1, 1, 2⟩, after) := by
  rcases run_with_buffer JobSpec.twoNodes oneLine with ⟨alike, countsNone, sameIff⟩
  have ran (size : Nat) (stats : RunStats)
      (counted : (perform (run files (JobSpec.twoNodes.withBuffer size)) oneLine).1 = .ok stats) :
      perform (run files (JobSpec.twoNodes.withBuffer size)) oneLine =
        (.ok stats, (perform (run files (JobSpec.twoNodes.withBuffer size)) oneLine).2) :=
    Prod.ext counted rfl
  have none := ran 0 ⟨1, 0, 0, 2⟩ (by decide +kernel)
  have one := ran 16 ⟨1, 1, 1, 2⟩ (by decide +kernel)
  refine ⟨alike 1 16 (by decide), ⟨_, _, none, countsNone _ _ none⟩, ⟨_, one, ?_⟩⟩
  intro same
  exact absurd ((sameIff 16 _ _ one).mp same) (by decide)

end Local

end ChunkStore
