import ChunkStore.Build
import ChunkStore.Proofs.ChunkAssignment
import ChunkStore.Proofs.ChunkPlans
import Mathlib.Data.Set.Function

/-!
Who owns a partition. A plan numbers the chunks of all nodes by quotient and remainder; a job looks
its partitions up in the cluster and refuses those out of range. Both agree on every partition of a
planned job, and the partitions go through the chunks of the nodes in order, each chunk once.
-/

namespace ChunkStore

set_option autoImplicit false

theorem Cluster.size_of_fewer {cluster : Cluster} (fewer : cluster.nodes.length < UInt32.size) :
    cluster.size.toNat = cluster.nodes.length :=
  UInt32.toNat_ofNat_of_lt' fewer

theorem Cluster.size_ne_zero {cluster : Cluster} (fewer : cluster.nodes.length < UInt32.size) :
    cluster.size ≠ 0 := by
  intro none
  have length := Cluster.size_of_fewer fewer
  rw [none] at length
  exact cluster.nodes_ne_nil (List.length_eq_zero_iff.mp length.symm)

namespace ChunkPlan

/-- A plan that gives so many nodes the same number of chunks, at least one, and no others. -/
structure Spreads (plan : ChunkPlan) (nodes : Nat) : Prop where
  positive : 0 < plan.chunksPerNode.toNat
  product : plan.parallelism.toNat = nodes * plan.chunksPerNode.toNat

theorem spreads_compute (total : UInt64) (replication : UInt32) (chunkSize : UInt64)
    {cluster : Cluster} (fewer : cluster.nodes.length < UInt32.size) :
    (compute total replication cluster.size chunkSize).Spreads cluster.nodes.length := by
  have present := Cluster.size_ne_zero fewer
  refine ⟨(compute_fits total replication cluster.size chunkSize present).1, ?_⟩
  rw [compute_parallelism total replication cluster.size chunkSize present,
    Cluster.size_of_fewer fewer]

section spread

variable {plan : ChunkPlan} {nodes : Nat} (spreads : plan.Spreads nodes)

include spreads

theorem node_below {partition : UInt32} (inside : partition < plan.parallelism) :
    (plan.nodeFor partition).toNat < nodes := by
  rw [nodeFor, UInt32.toNat_div]
  apply Nat.div_lt_of_lt_mul
  rw [Nat.mul_comm, ← spreads.product]
  exact UInt32.lt_iff_toNat_lt.mp inside

theorem chunk_below (partition : UInt32) : plan.chunkFor partition < plan.chunksPerNode := by
  rw [UInt32.lt_iff_toNat_lt, chunkFor, UInt32.toNat_mod]
  exact Nat.mod_lt _ spreads.positive

end spread

theorem partition_of_place (plan : ChunkPlan) (partition : UInt32) :
    partition.toNat =
      plan.chunksPerNode.toNat * (plan.nodeFor partition).toNat +
        (plan.chunkFor partition).toNat := by
  rw [nodeFor, chunkFor, UInt32.toNat_div, UInt32.toNat_mod, Nat.div_add_mod]

theorem exists_partition {plan : ChunkPlan} {nodes : Nat} (spreads : plan.Spreads nodes)
    {node chunk : UInt32} (nodeInside : node.toNat < nodes)
    (chunkInside : chunk < plan.chunksPerNode) :
    ∃ partition < plan.parallelism, plan.nodeFor partition = node ∧
      plan.chunkFor partition = chunk := by
  obtain ⟨below, _, quotient, remainder⟩ :=
    word_of_place spreads.product nodeInside (UInt32.lt_iff_toNat_lt.mp chunkInside)
  refine ⟨_, below, ?_, ?_⟩
  · apply UInt32.toNat_inj.mp
    rw [nodeFor, UInt32.toNat_div]
    exact quotient
  · rw [chunkFor, remainder, UInt32.ofNat_toNat]

/-- The partitions of a plan are the chunks of its nodes, each once. -/
theorem places_bijective {plan : ChunkPlan} {nodes : Nat} (spreads : plan.Spreads nodes) :
    Set.BijOn (fun partition => (plan.nodeFor partition, plan.chunkFor partition))
      {partition | partition < plan.parallelism}
      ({node | node.toNat < nodes} ×ˢ {chunk | chunk < plan.chunksPerNode}) := by
  refine ⟨?_, ?_, ?_⟩
  · intro partition inside
    exact ⟨node_below spreads inside, chunk_below spreads partition⟩
  · intro left _ right _ same
    obtain ⟨sameNode, sameChunk⟩ := Prod.mk.inj same
    apply UInt32.toNat_inj.mp
    rw [plan.partition_of_place left, plan.partition_of_place right, sameNode, sameChunk]
  · rintro ⟨node, chunk⟩ ⟨nodeInside, chunkInside⟩
    obtain ⟨partition, inside, isNode, isChunk⟩ := exists_partition spreads nodeInside chunkInside
    exact ⟨partition, inside, Prod.ext isNode isChunk⟩

theorem places_increase {plan : ChunkPlan} {earlier later : UInt32} (before : earlier < later) :
    plan.nodeFor earlier < plan.nodeFor later ∨
      plan.nodeFor earlier = plan.nodeFor later ∧
        plan.chunkFor earlier < plan.chunkFor later := by
  have first := plan.partition_of_place earlier
  have second := plan.partition_of_place later
  rw [UInt32.lt_iff_toNat_lt] at before
  -- The quotient never falls, and where it stays the remainder grows as the partition does.
  have quotients : (plan.nodeFor earlier).toNat ≤ (plan.nodeFor later).toNat := by
    rw [nodeFor, nodeFor, UInt32.toNat_div, UInt32.toNat_div]
    exact Nat.div_le_div_right (Nat.le_of_lt before)
  rcases Nat.lt_or_eq_of_le quotients with sooner | same
  · exact .inl (UInt32.lt_iff_toNat_lt.mpr sooner)
  · refine .inr ⟨UInt32.toNat_inj.mp same, UInt32.lt_iff_toNat_lt.mpr ?_⟩
    rw [same] at first
    omega

end ChunkPlan

namespace Builder

open ChunkPlan

theorem job_planned_of_spread (builder : Builder) (submission : Submission) {plan : ChunkPlan}
    (spreads : plan.Spreads builder.cluster.nodes.length) :
    (builder.job submission plan).Planned :=
  ⟨UInt32.le_iff_toNat_le.mpr spreads.positive, spreads.product⟩

/-- In a planned job a partition in range writes the chunk at its place of the plan. -/
theorem chunk_for_of_place (builder : Builder) (submission : Submission) {plan : ChunkPlan}
    (spreads : plan.Spreads builder.cluster.nodes.length) {partition : UInt32}
    (inside : partition < plan.parallelism) :
    ∃ node, builder.cluster.nodes[(plan.nodeFor partition).toNat]? = some node ∧
      (builder.job submission plan).chunkFor partition =
        some ⟨node.id, plan.chunkFor partition⟩ := by
  have below := node_below spreads inside
  refine ⟨_, List.getElem?_eq_getElem below, ?_⟩
  have present : plan.chunksPerNode ≠ 0 :=
    UInt32.pos_iff_ne_zero.mp (UInt32.lt_iff_toNat_lt.mpr spreads.positive)
  refine (JobSpec.chunk_for_iff _ _ _).mpr ⟨present, inside, ?_, rfl⟩
  have place : partition.toNat / (builder.job submission plan).chunks.toNat =
      (plan.nodeFor partition).toNat := (UInt32.toNat_div _ _).symm
  rw [place, JobSpec.nodeIds, List.getElem?_map]
  exact congrArg (Option.map (·.id)) (List.getElem?_eq_getElem below)

theorem chunk_for_outside (builder : Builder) (submission : Submission) {plan : ChunkPlan}
    {partition : UInt32} (outside : ¬ partition < plan.parallelism) :
    (builder.job submission plan).chunkFor partition = none := by
  rw [UInt32.not_lt] at outside
  exact if_pos (Or.inr outside)

/-- A plan and its job agree on who owns a partition: those in range belong to the node and the
chunk that the plan computes, the others to none; and the partitions in range are the chunks of all
nodes, each once and in order. -/
theorem plan_and_job_agree (builder : Builder) (submission : Submission) (total : UInt64)
    (replication : UInt32) (chunkSize : UInt64)
    (fewer : builder.cluster.nodes.length < UInt32.size) :
    let plan := ChunkPlan.compute total replication builder.cluster.size chunkSize
    let job := builder.job submission plan
    (∀ partition, partition < plan.parallelism →
        ∃ node, builder.cluster.nodes[(plan.nodeFor partition).toNat]? = some node ∧
          job.chunkFor partition = some ⟨node.id, plan.chunkFor partition⟩) ∧
      (∀ partition, ¬ partition < plan.parallelism → job.chunkFor partition = none) ∧
      Set.BijOn (fun partition => (plan.nodeFor partition, plan.chunkFor partition))
        {partition | partition < plan.parallelism}
        ({node | node.toNat < builder.cluster.nodes.length} ×ˢ
          {chunk | chunk < plan.chunksPerNode}) ∧
      ∀ earlier later, earlier < later →
        plan.nodeFor earlier < plan.nodeFor later ∨
          plan.nodeFor earlier = plan.nodeFor later ∧
            plan.chunkFor earlier < plan.chunkFor later := by
  intro plan job
  have spreads := spreads_compute total replication chunkSize fewer
  refine ⟨?_, ?_, places_bijective spreads, ?_⟩
  · intro partition inside
    exact chunk_for_of_place builder submission spreads inside
  · intro partition outside
    exact chunk_for_outside builder submission outside
  · intro earlier later before
    exact places_increase before

def pairBuilder : Builder where
  cluster := JobSpec.twoNodes.cluster
  store := JobSpec.twoNodes.store
  config :=
    ⟨{ input := JobSpec.twoNodes.input
       temp := JobSpec.twoNodes.temp
       output := JobSpec.twoNodes.output },
      ⟨by decide, by decide, by decide, by decide, by decide⟩⟩

/-- Two nodes that hold as many chunks as have numbers. -/
theorem full_pair_agrees :
    pairBuilder.cluster.nodes.length < UInt32.size ∧
      let plan := ChunkPlan.compute 18446744073709551615 1 pairBuilder.cluster.size 1
      let job := pairBuilder.job ⟨"job", "now"⟩ plan
      (∃ node, pairBuilder.cluster.nodes[(plan.nodeFor 4294967293).toNat]? = some node ∧
        job.chunkFor 4294967293 = some ⟨node.id, plan.chunkFor 4294967293⟩) ∧
        job.chunkFor 4294967294 = none ∧
        Set.BijOn (fun partition => (plan.nodeFor partition, plan.chunkFor partition))
          {partition | partition < plan.parallelism}
          ({node | node.toNat < pairBuilder.cluster.nodes.length} ×ˢ
            {chunk | chunk < plan.chunksPerNode}) ∧
        (plan.nodeFor 2147483646 < plan.nodeFor 2147483647 ∨
          plan.nodeFor 2147483646 = plan.nodeFor 2147483647 ∧
            plan.chunkFor 2147483646 < plan.chunkFor 2147483647) := by
  obtain ⟨inside, outside, bijective, increase⟩ :=
    plan_and_job_agree pairBuilder ⟨"job", "now"⟩ 18446744073709551615 1 1 (by decide)
  exact ⟨by decide, inside 4294967293 (by decide), outside 4294967294 (by decide), bijective,
    increase 2147483646 2147483647 (by decide)⟩

end Builder

end ChunkStore
