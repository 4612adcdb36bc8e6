import ChunkStore.Proofs.Conservation

/-!
Reproducible runs. Records with different keys can be sorted in one way only, so two runs that
map the same records in any order write the same bytes into the files of every chunk, wherever
the records came from and wherever they were spilled.
-/

namespace ChunkStore

set_option autoImplicit false

open Stateful Memory

namespace Record

/-- Records with different keys are sorted to one list from whatever order they come in. -/
theorem sort_by_key_perm {left right : List Record} (perm : left.Perm right)
    (apart : (left.map (·.key)).Nodup) : sortByKey left = sortByKey right := by
  have sorted (records : List Record) :
      (sortByKey records).Pairwise fun first second => keyLe first second = true :=
    (stably_sorted_by_key records).ordered
  have leftPerm : (sortByKey left).Perm left := List.mergeSort_perm _ _
  have rightPerm : (sortByKey right).Perm right := List.mergeSort_perm _ _
  refine List.Perm.eq_of_pairwise ?_ (sorted left) (sorted right)
    (leftPerm.trans (perm.trans rightPerm.symm))
  intro first second firstMember secondMember forward backward
  have sameKey := Bytes.le_antisymm forward backward
  have inLeft := leftPerm.mem_iff.mp firstMember
  have otherInLeft := perm.mem_iff.mpr (rightPerm.mem_iff.mp secondMember)
  exact List.inj_on_of_nodup_map apart inLeft otherInLeft sameKey

end Record

namespace JobSpec

/-- What two jobs have in common that spread the same records over the same chunks: the rest of
them may differ, the input and the room for spills included. -/
structure SpreadsAlike (job other : JobSpec) : Prop where
  cluster : job.cluster = other.cluster
  chunks : job.chunks = other.chunks
  reduceTasks : job.reduceTasks = other.reduceTasks
  partitioner : job.partitioner = other.partitioner
  writer : job.writer = other.writer

namespace SpreadsAlike

variable {job other : JobSpec} (alike : SpreadsAlike job other)

include alike

theorem chunk_for (partition : UInt32) : job.chunkFor partition = other.chunkFor partition := by
  rw [chunkFor, chunkFor, alike.cluster, alike.chunks, alike.reduceTasks]

theorem routed (records : List Record) (partition : UInt32) :
    Local.routedTo job records partition = Local.routedTo other records partition := by
  simp only [Local.routedTo, Local.routedBy, alike.partitioner, alike.reduceTasks]

end SpreadsAlike

end JobSpec

namespace Local

/-- After a run that succeeded the chunk of every partition has its two files, and they hold what
the job's writer makes of the sorted records that go there. -/
theorem run_writes {job : JobSpec} {tree after : Tree} {stats : RunStats}
    (reachable : tree.Reachable) (distinct : job.nodeIds.Nodup) (room : 1 ≤ job.bufferSize)
    (done : (run files job).run.run tree = (.ok stats, after)) {partition : UInt32}
    (inside : partition < job.reduceTasks) :
    ∃ chunk, job.chunkFor partition = some chunk ∧
      ∀ file, after.contents? (chunk.filePath job.output file) =
        some ((job.writer.emit (Record.sortByKey
          (routedTo job (keptRecords job tree) partition))).contents file) := by
  obtain ⟨inputs, mapped, ran, _⟩ := run_ok room done
  have kept : mapped.routed.reverse = (keptRecords job tree).map (routedBy job) := by
    rw [ran.adds.routed, ran_inputs reachable ran]
    rfl
  obtain ⟨⟨chunk, found⟩, _⟩ := ran.reduced partition ((mem_partitions job partition).mpr inside)
  refine ⟨chunk, found, ?_⟩
  intro file
  rw [chunk_contents distinct ran found file, kept, bucket_routed]

/-- Two runs that succeed on the same records with different keys, in whatever order and from
whatever files these come, leave the same bytes in the two files of every partition's chunk. -/
theorem runs_reproduce (job other : JobSpec) (tree otherTree after otherAfter : Tree)
    (stats otherStats : RunStats) (alike : job.SpreadsAlike other)
    (distinct : job.nodeIds.Nodup) (room : 1 ≤ job.bufferSize) (otherRoom : 1 ≤ other.bufferSize)
    (reachable : tree.Reachable) (otherReachable : otherTree.Reachable)
    (perm : (keptRecords job tree).Perm (keptRecords other otherTree))
    (apart : ((keptRecords job tree).map (·.key)).Nodup)
    (done : (run files job).run.run tree = (.ok stats, after))
    (otherDone : (run files other).run.run otherTree = (.ok otherStats, otherAfter)) :
    ∀ partition < job.reduceTasks, ∃ chunk,
      job.chunkFor partition = some chunk ∧ other.chunkFor partition = some chunk ∧
        ∀ file, ∃ bytes,
          after.contents? (chunk.filePath job.output file) = some bytes ∧
          otherAfter.contents? (chunk.filePath other.output file) = some bytes := by
  intro partition inside
  have otherDistinct : other.nodeIds.Nodup := by
    rwa [JobSpec.nodeIds, ← alike.cluster]
  obtain ⟨chunk, found, written⟩ := run_writes reachable distinct room done inside
  obtain ⟨otherChunk, otherFound, otherWritten⟩ :=
    run_writes otherReachable otherDistinct otherRoom otherDone (alike.reduceTasks ▸ inside)
  have same : chunk = otherChunk := by
    rw [alike.chunk_for, otherFound] at found
    exact (Option.some.inj found).symm
  subst same
  refine ⟨chunk, found, otherFound, ?_⟩
  intro file
  -- what goes to one partition is a part of all records, so its keys differ too
  have bucketPerm : (routedTo job (keptRecords job tree) partition).Perm
      (routedTo job (keptRecords other otherTree) partition) := perm.filter _
  have bucketApart : ((routedTo job (keptRecords job tree) partition).map (·.key)).Nodup :=
    apart.sublist (List.filter_sublist.map _)
  refine ⟨_, written file, ?_⟩
  rw [otherWritten file, Record.sort_by_key_perm bucketPerm bucketApart, alike.routed, alike.writer]

/-- The records of `twoLines` the other way round, in files of their own. -/
def twoFiles : Tree :=
  (Tree.empty.addFile (.ofText "/from/deep/x") [107, 9, 118, 10]).addFile (.ofText "/from/y")
    [106, 9, 119]

def elsewhere : JobSpec :=
  { JobSpec.twoNodes with input := .ofText "/from", temp := .ofText "/room", bufferSize := 3 }

def elsewhereRun : Except EngineError RunStats × Tree := (run files elsewhere).run.run twoFiles

theorem elsewhere_done :
    (run files elsewhere).run.run twoFiles = (.ok ⟨2, 2, 2, 2⟩, elsewhereRun.2) := by
  have ran : elsewhereRun.1 = .ok ⟨2, 2, 2, 2⟩ := by decide +kernel
  rw [← ran]
  exact (Prod.eta elsewhereRun).symm

theorem two_files_reproduce :
    (keptRecords .twoNodes twoLines).Perm (keptRecords elsewhere twoFiles) ∧
      ((keptRecords .twoNodes twoLines).map (·.key)).Nodup ∧
      ∀ partition < JobSpec.twoNodes.reduceTasks, ∃ chunk,
        JobSpec.twoNodes.chunkFor partition = some chunk ∧
          elsewhere.chunkFor partition = some chunk ∧
          ∀ file, ∃ bytes,
            twoNodesRun.2.contents? (chunk.filePath JobSpec.twoNodes.output file) = some bytes ∧
            elsewhereRun.2.contents? (chunk.filePath elsewhere.output file) = some bytes := by
  have perm : (keptRecords .twoNodes twoLines).Perm (keptRecords elsewhere twoFiles) := by
    decide +kernel
  have apart : ((keptRecords .twoNodes twoLines).map (·.key)).Nodup := by decide +kernel
  refine ⟨perm, apart, ?_⟩
  exact runs_reproduce .twoNodes elsewhere twoLines twoFiles twoNodesRun.2 elsewhereRun.2
    ⟨1, 2, 2, 2⟩ ⟨2, 2, 2, 2⟩ ⟨rfl, rfl, rfl, rfl, rfl⟩ (by decide) (by decide) (by decide)
    ⟨[], .next .start (.addFile _ _ _)⟩
    ⟨[], .next (.next .start (.addFile _ _ _)) (.addFile _ _ _)⟩ perm apart two_nodes_done
    elsewhere_done

end Local

end ChunkStore
