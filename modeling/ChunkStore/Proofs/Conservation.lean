import ChunkStore.Proofs.ChunkAssignment
import ChunkStore.Proofs.LocalRun
import ChunkStore.Proofs.MemoryHistory

/-!
What a run conserves. Every record that the transform keeps is in exactly one chunk, that of the
partition it is routed to, and each chunk has its records sorted by key without a change in the
order of those with one key.
-/

namespace ChunkStore.Local

set_option autoImplicit false

open Stateful Memory

/-! Buckets -/

def routedTo (job : JobSpec) (records : List Record) (partition : UInt32) : List Record :=
  records.filter fun record => (routedBy job record).partition == partition

theorem bucket_routed (job : JobSpec) (records : List Record) (partition : UInt32) :
    bucket (records.map (routedBy job)) partition = routedTo job records partition := by
  rw [bucket, routedTo, List.filter_map, List.map_map]
  exact List.map_id _

theorem routed_perm (job : JobSpec) (records : List Record) {partitions : List UInt32}
    (nodup : partitions.Nodup)
    (inside : ∀ record ∈ records, (routedBy job record).partition ∈ partitions) :
    (partitions.flatMap (routedTo job records)).Perm records := by
  induction partitions generalizing records with
  | nil =>
      have none : records = [] := List.eq_nil_iff_forall_not_mem.mpr fun record member =>
        absurd (inside record member) (by simp)
      rw [none]
      exact List.Perm.refl _
  | cons partition rest induction =>
      obtain ⟨new, restNodup⟩ := List.nodup_cons.mp nodup
      let here (record : Record) : Bool := (routedBy job record).partition == partition
      have others : rest.flatMap (routedTo job records) =
          rest.flatMap (routedTo job (records.filter fun record => !here record)) := by
        apply List.flatMap_congr
        intro other member
        rw [routedTo, routedTo, List.filter_filter]
        apply List.filter_congr
        intro record _
        by_cases same : (routedBy job record).partition = other
        · have elsewhere : other ≠ partition := fun equal => new (equal ▸ member)
          simp [here, same, elsewhere]
        · simp [same]
      have apart : (rest.flatMap (routedTo job (records.filter fun record => !here record))).Perm
          (records.filter fun record => !here record) := by
        apply induction _ restNodup
        intro record member
        obtain ⟨isRecord, elsewhere⟩ := List.mem_filter.mp member
        rcases List.mem_cons.mp (inside record isRecord) with equal | later
        · simp [here, equal] at elsewhere
        · exact later
      rw [List.flatMap_cons, others]
      exact (List.Perm.append_left _ apart).trans (List.filter_append_perm here records)

/-! Chunks -/

def chunkRecords (job : JobSpec) (tree : Tree) (partition : UInt32) : Option (List Record) := do
  let chunk ← job.chunkFor partition
  let data ← tree.contents? (chunk.dataPath job.output)
  (Record.decodeAll none data).toOption

def hasIndex (job : JobSpec) (tree : Tree) (partition : UInt32) : Bool :=
  (job.chunkFor partition).any fun chunk => tree.isFile (chunk.indexPath job.output)

/-- The records that the job's transform keeps of its input, in the order of the input. -/
def keptRecords (job : JobSpec) (tree : Tree) : List Record :=
  keptOf job.transform (linesOf tree (inputsAt tree job.input))

theorem chunk_files_apart {job : JobSpec} (distinct : job.nodeIds.Nodup)
    (records : UInt32 → List Record) {partitions : List UInt32} (nodup : partitions.Nodup) :
    (partitions.flatMap (chunkFiles job records)).Pairwise fun first second =>
      first.1.same second.1 = false := by
  induction partitions with
  | nil => exact List.Pairwise.nil
  | cons partition rest induction =>
      obtain ⟨new, restNodup⟩ := List.nodup_cons.mp nodup
      rw [List.flatMap_cons, List.pairwise_append]
      refine ⟨?_, induction restNodup, ?_⟩
      · unfold chunkFiles
        cases job.chunkFor partition with
        | none => exact List.Pairwise.nil
        | some chunk =>
            apply List.pairwise_pair.mpr
            rw [Path.same_comm]
            exact data_index_apart chunk job.output
      · intro first firstMember second secondMember
        obtain ⟨other, otherMember, inOther⟩ := List.mem_flatMap.mp secondMember
        obtain ⟨chunk, found, place⟩ := chunk_file_is_chunk_path firstMember
        obtain ⟨otherChunk, otherFound, otherPlace⟩ := chunk_file_is_chunk_path inOther
        have different : chunk ≠ otherChunk := by
          intro same
          rw [same] at found
          exact new (JobSpec.chunk_for_injective distinct found otherFound ▸ otherMember)
        rw [Bool.eq_false_iff]
        intro same
        rcases place with place | place <;> rcases otherPlace with otherPlace | otherPlace <;>
          rw [place, otherPlace] at same <;> exact different (file_path_injective same).1

/-- After a run that succeeded the files of every chunk hold what its partition wrote. -/
theorem chunk_contents {job : JobSpec} {tree after : Tree} {inputs : List Path} {mapped : Mapped}
    (distinct : job.nodeIds.Nodup) (ran : Ran job tree after inputs mapped) {partition : UInt32}
    {chunk : ChunkId} (found : job.chunkFor partition = some chunk) (file : ChunkFile) :
    after.contents? (chunk.filePath job.output file) =
      some ((job.writer.emit (Record.sortByKey
        (bucket mapped.routed.reverse partition))).contents file) := by
  obtain ⟨made, spilled, _, _, chunks⟩ := ran.stored
  apply Tree.contents_store_all (chunk_files_apart distinct _ (partitions_nodup job)) chunks
  have inside := ((job.chunk_for_iff partition chunk).mp found).2.1
  refine List.mem_flatMap.mpr ⟨partition, (mem_partitions job partition).mpr inside, ?_⟩
  rw [chunkFiles, found]
  cases file <;> simp

theorem ran_inputs {job : JobSpec} {tree after : Tree} {inputs : List Path} {mapped : Mapped}
    (reachable : tree.Reachable) (ran : Ran job tree after inputs mapped) :
    inputs = inputsAt tree job.input := by
  have found := ran.found
  rw [perform_input_files reachable.distinct] at found
  cases listed : tree.list job.input with
  | error error =>
      rw [listed] at found
      exact absurd (congrArg Prod.fst found) (by simp)
  | ok statuses =>
      rw [listed] at found
      exact (Except.ok.inj (Prod.mk.inj found).1).symm

/-- A run that succeeds loses, doubles and misplaces no record: each chunk is the stable sort by
key of the records that go to its partition, all chunks together are a permutation of the records
that the transform keeps, and the statistics count just these. -/
theorem run_conserves_records (job : JobSpec) (tree after : Tree) (stats : RunStats)
    (reachable : tree.Reachable) (distinct : job.nodeIds.Nodup) (room : 1 ≤ job.bufferSize)
    (binary : job.writer = .binary)
    (done : (run files job).run.run tree = (.ok stats, after)) :
    ∃ chunks : UInt32 → List Record,
      (∀ partition < job.reduceTasks,
        chunkRecords job after partition = some (chunks partition) ∧
          StablySorted Record.keyLe (routedTo job (keptRecords job tree) partition)
            (chunks partition) ∧
          hasIndex job after partition = true) ∧
        ((partitions job).flatMap chunks).Perm (keptRecords job tree) ∧
        stats.recordsOut = (keptRecords job tree).length ∧
        stats.chunksWritten = job.reduceTasks.toNat := by
  obtain ⟨inputs, mapped, ran, counted⟩ := run_ok room done
  have kept : mapped.routed.reverse = (keptRecords job tree).map (routedBy job) := by
    rw [ran.adds.routed, ran_inputs reachable ran]
    rfl
  have buckets : bucket mapped.routed.reverse = routedTo job (keptRecords job tree) := by
    funext partition
    rw [kept, bucket_routed]
  have spread : ((partitions job).flatMap (routedTo job (keptRecords job tree))).Perm
      (keptRecords job tree) := by
    apply routed_perm job _ (partitions_nodup job)
    intro record member
    refine (mem_partitions job _).mpr (ran.adds.inRange record ?_)
    rw [ran_inputs reachable ran]
    exact member
  refine ⟨fun partition => Record.sortByKey (routedTo job (keptRecords job tree) partition),
    ?_, ?_, ?_, ?_⟩
  · intro partition inside
    obtain ⟨⟨chunk, found⟩, whole⟩ := ran.reduced partition ((mem_partitions job _).mpr inside)
    have data := chunk_contents distinct ran found .data
    have index := chunk_contents distinct ran found .index
    rw [buckets, binary] at whole data
    obtain ⟨writable, encoded⟩ := ChunkWriter.emit_binary_none whole
    refine ⟨?_, Record.stably_sorted_by_key _, ?_⟩
    · have decoded := Record.decode_encode none (by simp) _ writable
      have stored : (ChunkWriter.binary.emit (Record.sortByKey
          (routedTo job (keptRecords job tree) partition))).contents .data =
            Record.encodeAll (Record.sortByKey (routedTo job (keptRecords job tree) partition)) :=
        encoded
      rw [stored, ← data_path_eq] at data
      rw [chunkRecords, found, Option.bind_eq_bind, Option.bind_some, data, Option.bind_eq_bind,
        Option.bind_some, decoded]
      rfl
    · rw [hasIndex, found, Option.any_some, Tree.isFile, index_path_eq, index]
      rfl
  · refine List.Perm.trans ?_ spread
    exact List.Perm.flatMap_left _ fun partition _ => List.mergeSort_perm _ _
  · rw [counted, RunStats.reduced, buckets]
    simp only [Nat.zero_add]
    rw [← spread.length_eq, List.length_flatMap]
  · rw [counted, RunStats.reduced]
    simp only [Nat.zero_add]
    rw [partitions, List.length_map, List.length_range]

def twoLines : Tree :=
  Tree.empty.addFile (.ofText "/in/a") [107, 9, 118, 10, 106, 9, 119, 13, 10]

def twoNodesRun : Except EngineError RunStats × Tree := (run files .twoNodes).run.run twoLines

theorem two_nodes_done :
    (run files .twoNodes).run.run twoLines = (.ok ⟨1, 2, 2, 2⟩, twoNodesRun.2) := by
  have ran : twoNodesRun.1 = .ok ⟨1, 2, 2, 2⟩ := by decide +kernel
  rw [← ran]
  exact (Prod.eta twoNodesRun).symm

theorem two_nodes_conserve :
    ∃ chunks : UInt32 → List Record,
      (∀ partition < JobSpec.twoNodes.reduceTasks,
        chunkRecords .twoNodes twoNodesRun.2 partition = some (chunks partition) ∧
          StablySorted Record.keyLe (routedTo .twoNodes (keptRecords .twoNodes twoLines) partition)
            (chunks partition) ∧
          hasIndex .twoNodes twoNodesRun.2 partition = true) ∧
        ((partitions .twoNodes).flatMap chunks).Perm (keptRecords .twoNodes twoLines) ∧
        2 = (keptRecords .twoNodes twoLines).length ∧
        2 = JobSpec.twoNodes.reduceTasks.toNat :=
  run_conserves_records .twoNodes twoLines twoNodesRun.2 ⟨1, 2, 2, 2⟩
    ⟨[], .next .start (.addFile _ _ _)⟩ (by decide) (by decide) rfl two_nodes_done

end ChunkStore.Local
