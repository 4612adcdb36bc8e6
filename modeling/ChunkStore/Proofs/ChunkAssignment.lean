import ChunkStore.Proofs.ChunkNames

/-!
Which chunk a partition writes. Quotient and remainder spread the partitions over the positions of
the nodes, but a chunk is named for the id of its node, so partitions share a chunk exactly when
nodes share an id.
-/

namespace ChunkStore

set_option autoImplicit false

/-! Places in blocks -/

/-- A place in one of several blocks of one length, counted from the first block on. -/
theorem place_in_blocks {block blocks index length : Nat} (blockInside : block < blocks)
    (inside : index < length) : block * length + index < blocks * length :=
  calc
    block * length + index < block * length + length := Nat.add_lt_add_left inside _
    _ = (block + 1) * length := (Nat.succ_mul _ _).symm
    _ ≤ blocks * length := Nat.mul_le_mul_right length blockInside

theorem word_of_place {block blocks index : Nat} {places length : UInt32}
    (product : places.toNat = blocks * length.toNat) (blockInside : block < blocks)
    (inside : index < length.toNat) :
    let word := UInt32.ofNat (block * length.toNat + index)
    word < places ∧ word.toNat = block * length.toNat + index ∧
      word.toNat / length.toNat = block ∧ word % length = UInt32.ofNat index := by
  intro word
  have positive : 0 < length.toNat := Nat.zero_lt_of_lt inside
  have below : block * length.toNat + index < places.toNat := by
    rw [product]
    exact place_in_blocks blockInside inside
  have number : word.toNat = block * length.toNat + index :=
    UInt32.toNat_ofNat_of_lt' (Nat.lt_trans below places.toNat_lt)
  have indexFits := UInt32.toNat_ofNat_of_lt' (Nat.lt_trans inside length.toNat_lt)
  refine ⟨?_, number, ?_, ?_⟩
  · rw [UInt32.lt_iff_toNat_lt, number]
    exact below
  · rw [number, Nat.mul_comm, Nat.mul_add_div positive, Nat.div_eq_of_lt inside, Nat.add_zero]
  · apply UInt32.toNat_inj.mp
    rw [UInt32.toNat_mod, number, Nat.mul_comm, Nat.mul_add_mod, Nat.mod_eq_of_lt inside, indexFits]

namespace JobSpec

def nodeIds (job : JobSpec) : List UInt32 := job.cluster.nodes.map (·.id)

/-- As many partitions as there are chunks on all nodes. -/
structure Planned (job : JobSpec) : Prop where
  chunks : 1 ≤ job.chunks
  tasks : job.reduceTasks.toNat = job.cluster.nodes.length * job.chunks.toNat

theorem chunk_for_iff (job : JobSpec) (partition : UInt32) (chunk : ChunkId) :
    job.chunkFor partition = some chunk ↔
      job.chunks ≠ 0 ∧ partition < job.reduceTasks ∧
        job.nodeIds[partition.toNat / job.chunks.toNat]? = some chunk.node ∧
          chunk.index = partition % job.chunks := by
  obtain ⟨node, index⟩ := chunk
  rw [chunkFor, nodeIds, List.getElem?_map, ← UInt32.toNat_div]
  by_cases outside : job.chunks = 0 ∨ job.reduceTasks ≤ partition
  · rw [if_pos outside]
    simp only [reduceCtorEq, false_iff, not_and]
    intro some inside
    rcases outside with none | above
    · exact absurd none some
    · rw [UInt32.le_iff_toNat_le] at above
      rw [UInt32.lt_iff_toNat_lt] at inside
      omega
  · rw [if_neg outside]
    rw [not_or, UInt32.not_le] at outside
    cases job.cluster.nodes[(partition / job.chunks).toNat]? with
    | none => simp
    | some found =>
        simp only [Option.map_some, Option.some.injEq, ChunkId.mk.injEq, outside, true_and, ne_eq,
          not_false_eq_true]
        constructor
        · rintro ⟨rfl, rfl⟩
          exact ⟨rfl, rfl⟩
        · rintro ⟨rfl, rfl⟩
          exact ⟨rfl, rfl⟩

theorem chunk_for_present {job : JobSpec} (planned : job.Planned) {partition : UInt32}
    (inside : partition < job.reduceTasks) : ∃ chunk, job.chunkFor partition = some chunk := by
  have some : job.chunks ≠ 0 := UInt32.pos_iff_ne_zero.mp planned.chunks
  have position : partition.toNat / job.chunks.toNat < job.nodeIds.length := by
    rw [nodeIds, List.length_map]
    apply Nat.div_lt_of_lt_mul
    rw [Nat.mul_comm, ← planned.tasks]
    exact UInt32.lt_iff_toNat_lt.mp inside
  exact ⟨⟨job.nodeIds[partition.toNat / job.chunks.toNat], partition % job.chunks⟩,
    (job.chunk_for_iff _ _).mpr ⟨some, inside, List.getElem?_eq_getElem position, rfl⟩⟩

theorem chunk_for_injective {job : JobSpec} (distinct : job.nodeIds.Nodup)
    {left right : UInt32} {chunk : ChunkId} (first : job.chunkFor left = some chunk)
    (second : job.chunkFor right = some chunk) : left = right := by
  obtain ⟨_, _, leftNode, leftIndex⟩ := (job.chunk_for_iff left chunk).mp first
  obtain ⟨_, _, rightNode, rightIndex⟩ := (job.chunk_for_iff right chunk).mp second
  obtain ⟨bound, _⟩ := List.getElem?_eq_some_iff.mp leftNode
  have quotients : left.toNat / job.chunks.toNat = right.toNat / job.chunks.toNat :=
    (List.getElem?_inj bound distinct).mp (leftNode.trans rightNode.symm)
  have remainders : left.toNat % job.chunks.toNat = right.toNat % job.chunks.toNat := by
    rw [← UInt32.toNat_mod, ← UInt32.toNat_mod, ← leftIndex, ← rightIndex]
  apply UInt32.toNat_inj.mp
  rw [← Nat.div_add_mod left.toNat job.chunks.toNat, quotients, remainders, Nat.div_add_mod]

theorem first_partition {job : JobSpec} (planned : job.Planned) {position : Nat}
    (inside : position < job.nodeIds.length) :
    ∃ partition, partition < job.reduceTasks ∧
      partition.toNat = position * job.chunks.toNat ∧
      job.chunkFor partition = some ⟨job.nodeIds[position], 0⟩ := by
  have positive : 0 < job.chunks.toNat := UInt32.le_iff_toNat_le.mp planned.chunks
  have some : job.chunks ≠ 0 := UInt32.pos_iff_ne_zero.mp planned.chunks
  have node : position < job.cluster.nodes.length := by rwa [nodeIds, List.length_map] at inside
  obtain ⟨below, number, quotient, remainder⟩ := word_of_place planned.tasks node positive
  rw [Nat.add_zero] at number below quotient remainder
  refine ⟨UInt32.ofNat (position * job.chunks.toNat), below, number, ?_⟩
  refine (job.chunk_for_iff _ _).mpr ⟨some, below, ?_, remainder.symm⟩
  rw [quotient]
  exact List.getElem?_eq_getElem inside

/-- Partitions of a planned job write different chunks, at places of their own, exactly when no two
nodes of the cluster have one id. -/
theorem partitions_apart_iff_ids_distinct (job : JobSpec) (planned : job.Planned) :
    (∀ left right, left < job.reduceTasks → right < job.reduceTasks → left ≠ right →
      ∃ leftChunk rightChunk, job.chunkFor left = some leftChunk ∧
        job.chunkFor right = some rightChunk ∧ leftChunk ≠ rightChunk ∧
        ∀ leftFile rightFile, (leftChunk.filePath job.output leftFile).same
          (rightChunk.filePath job.output rightFile) = false) ↔ job.nodeIds.Nodup := by
  constructor
  · intro apart
    apply List.pairwise_iff_getElem.mpr
    intro first second firstInside secondInside earlier sameId
    obtain ⟨left, leftBelow, leftNumber, leftChunk⟩ := first_partition planned firstInside
    obtain ⟨right, rightBelow, rightNumber, rightChunk⟩ := first_partition planned secondInside
    have positive : 0 < job.chunks.toNat := UInt32.le_iff_toNat_le.mp planned.chunks
    have different : left ≠ right := by
      intro same
      rw [same, rightNumber] at leftNumber
      exact absurd (Nat.eq_of_mul_eq_mul_right positive leftNumber) (by omega)
    obtain ⟨oneChunk, otherChunk, isOne, isOther, unequal, _⟩ :=
      apart left right leftBelow rightBelow different
    rw [leftChunk, Option.some.injEq] at isOne
    rw [rightChunk, Option.some.injEq] at isOther
    exact unequal (by rw [← isOne, ← isOther, sameId])
  · intro distinct left right leftBelow rightBelow different
    obtain ⟨leftChunk, isLeft⟩ := chunk_for_present planned leftBelow
    obtain ⟨rightChunk, isRight⟩ := chunk_for_present planned rightBelow
    have unequal : leftChunk ≠ rightChunk := by
      intro same
      rw [same] at isLeft
      exact different (chunk_for_injective distinct isLeft isRight)
    refine ⟨leftChunk, rightChunk, isLeft, isRight, unequal, ?_⟩
    intro leftFile rightFile
    rw [Bool.eq_false_iff]
    intro same
    exact unequal (file_path_injective same).1

def twoNodes : JobSpec where
  id := "job"
  submittedAt := "now"
  input := .ofText "/in"
  temp := .ofText "/tmp"
  output := .ofText "/out"
  reduceTasks := 2
  chunks := 1
  cluster := ⟨"pair", [⟨3, ""⟩, ⟨5, ""⟩], by decide⟩
  store := ⟨"users", 1, by decide⟩
  outputReplication := 1
  bufferSize := 16
  transform := .tabSeparated
  partitioner := .md5
  writer := .binary

theorem two_nodes_apart :
    twoNodes.Planned ∧
      ∀ left right, left < twoNodes.reduceTasks → right < twoNodes.reduceTasks → left ≠ right →
        ∃ leftChunk rightChunk, twoNodes.chunkFor left = some leftChunk ∧
          twoNodes.chunkFor right = some rightChunk ∧ leftChunk ≠ rightChunk ∧
          ∀ leftFile rightFile, (leftChunk.filePath twoNodes.output leftFile).same
            (rightChunk.filePath twoNodes.output rightFile) = false := by
  have planned : twoNodes.Planned := ⟨by decide, by decide⟩
  exact ⟨planned, (partitions_apart_iff_ids_distinct twoNodes planned).mpr (by decide)⟩

/-- A cluster may have two nodes of one id, and then two partitions of a planned job write one
chunk. -/
theorem twins_share_chunk :
    ∃ cluster, Cluster.ofNodes "twins" [⟨7, ""⟩, ⟨7, ""⟩] = .ok cluster ∧
      Planned { twoNodes with cluster } ∧
        chunkFor { twoNodes with cluster } 0 = some ⟨7, 0⟩ ∧
          chunkFor { twoNodes with cluster } 1 = some ⟨7, 0⟩ := by
  refine ⟨⟨"twins", [⟨7, ""⟩, ⟨7, ""⟩], by decide⟩, rfl, ⟨by decide, by decide⟩, ?_, ?_⟩
  · decide
  · decide

end JobSpec

end ChunkStore
