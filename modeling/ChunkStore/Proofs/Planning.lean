import ChunkStore.Proofs.LocalRun
import ChunkStore.Proofs.PartitionLayout

/-!
The plan of a build. A cluster has a 32-bit number of nodes and all its chunks together have 32-bit
numbers, so a job with partitions has one for every chunk, and its partitions go through the chunks
of the first node, then through those of the second, and so on.
-/

namespace ChunkStore

set_option autoImplicit false

theorem length_distinct_words {words : List UInt32} (distinct : words.Nodup) :
    words.length ≤ UInt32.size := by
  have numbers : (words.map UInt32.toNat).Nodup :=
    distinct.map fun _ _ same => UInt32.toNat_inj.mp same
  have inside : words.map UInt32.toNat ⊆ List.range UInt32.size := by
    intro number member
    obtain ⟨word, _, rfl⟩ := List.mem_map.mp member
    exact List.mem_range.mpr word.toNat_lt
  have length := (List.subperm_of_subset numbers inside).length_le
  rwa [List.length_map, List.length_range] at length

/-- Numbers below a product in blocks of one length. -/
theorem range_mul (blocks length : Nat) :
    List.range (blocks * length) = (List.range blocks).flatMap fun block =>
      (List.range length).map fun index => block * length + index := by
  induction blocks with
  | zero => simp
  | succ blocks induction =>
      rw [Nat.succ_mul, List.range_add, induction, List.range_succ, List.flatMap_append,
        List.flatMap_cons, List.flatMap_nil, List.append_nil]

namespace Builder

/-- With distinct ids a job that has partitions has one for every chunk of the plan. -/
theorem job_planned (builder : Builder) (submission : Submission) (inputBytes : Nat)
    (distinct : (builder.cluster.nodes.map (·.id)).Nodup)
    (tasks : (builder.job submission (builder.plan inputBytes)).reduceTasks ≠ 0) :
    (builder.job submission (builder.plan inputBytes)).Planned := by
  have few := length_distinct_words distinct
  rw [List.length_map] at few
  -- So many nodes that their number wraps around leave no partition.
  have fewer : builder.cluster.nodes.length < UInt32.size := by
    apply Nat.lt_of_le_of_ne few
    intro all
    have wrapped : builder.cluster.size = 0 := by
      rw [Cluster.size, all]
      rfl
    have product : (builder.job submission (builder.plan inputBytes)).reduceTasks =
        builder.cluster.size * (builder.plan inputBytes).chunksPerNode := rfl
    rw [product, wrapped, UInt32.zero_mul] at tasks
    exact tasks rfl
  exact builder.job_planned_of_spread submission (ChunkPlan.spreads_compute _ _ _ fewer)

end Builder

namespace Local

theorem run_has_partitions {job : JobSpec} {tree after : Memory.Tree} {stats : RunStats}
    (done : Stateful.perform (run Memory.files job) tree = (.ok stats, after)) :
    job.reduceTasks ≠ 0 := by
  intro none
  rw [run, if_pos (Or.inl none)] at done
  obtain ⟨_, _, thrown, _⟩ := Stateful.bind_ok done
  exact absurd (congrArg Prod.fst thrown) (by simp)

def partitionAt (job : JobSpec) (position index : Nat) : UInt32 :=
  UInt32.ofNat (position * job.chunks.toNat + index)

/-- The partitions go through the chunks node by node. -/
theorem partitions_by_node {job : JobSpec} (planned : job.Planned) :
    partitions job = (List.range job.cluster.nodes.length).flatMap fun position =>
      (List.range job.chunks.toNat).map (partitionAt job position) := by
  rw [partitions, planned.tasks, range_mul, List.map_flatMap]
  simp only [List.map_map]
  rfl

theorem chunk_of_partition_at {job : JobSpec} (planned : job.Planned) {position index : Nat}
    (node : position < job.nodeIds.length) (chunk : index < job.chunks.toNat) :
    job.chunkFor (partitionAt job position index) =
      some ⟨job.nodeIds[position], UInt32.ofNat index⟩ := by
  have inside : position < job.cluster.nodes.length := by
    rwa [JobSpec.nodeIds, List.length_map] at node
  obtain ⟨below, _, quotient, remainder⟩ := word_of_place planned.tasks inside chunk
  refine (job.chunk_for_iff _ _).mpr ⟨?_, below, ?_, remainder.symm⟩
  · exact UInt32.pos_iff_ne_zero.mp planned.chunks
  · rw [partitionAt, quotient]
    exact List.getElem?_eq_getElem node

end Local

end ChunkStore
