import ChunkStore.Proofs.ChunkFiles
import ChunkStore.Proofs.Traversal

/-!
A whole run of the engine on a tree. A run that succeeds has made the spill directory, stored one
spill for every partition and then the two files of every chunk, in the order of the partitions. A
run that fails has done a beginning of that.
-/

namespace ChunkStore.Local

set_option autoImplicit false

open Stateful Memory

/-! Spilling -/

def spillFile (job : JobSpec) (records : UInt32 → List Record) (partition : UInt32) :
    Path × Bytes :=
  (spillPath (spillDirectory job) partition, Record.encodeAll (records partition))

def IsSpillPath (job : JobSpec) (path : Path) : Prop :=
  ∃ partition, path = spillPath (spillDirectory job) partition

theorem spill_all_ok {job : JobSpec} {routed : List Routed} {partitions : List UInt32}
    {tree after : Tree}
    (done : perform (spillAll files job routed partitions) tree = (.ok (), after)) :
    (∀ partition ∈ partitions, ∀ record ∈ bucket routed partition, record.Writable) ∧
      tree.storeAll (partitions.map (spillFile job (bucket routed))) = .ok after := by
  induction partitions generalizing tree with
  | nil =>
      rw [spillAll, perform_pure] at done
      exact ⟨by simp, by rw [(Prod.mk.inj done).2]; rfl⟩
  | cons partition rest induction =>
      rw [spillAll, perform_bind] at done
      have spilled := perform_spill job routed partition tree
      generalize perform (spill files job routed partition) tree = outcome at spilled done
      cases spilled with
      | refused error => exact absurd (congrArg Prod.fst done) (by simp)
      | stopped error bytes middle stored => exact absurd (congrArg Prod.fst done) (by simp)
      | complete middle writable stored =>
          obtain ⟨restWritable, others⟩ := induction done
          exact ⟨List.forall_mem_cons.mpr ⟨writable, restWritable⟩,
            Tree.store_all_cons stored others⟩

theorem spill_all_exits (job : JobSpec) (routed : List Routed) (partitions : List UInt32)
    (tree : Tree) :
    ∃ stored, tree.storeAll stored = .ok (perform (spillAll files job routed partitions) tree).2 ∧
      ∀ file ∈ stored, IsSpillPath job file.1 := by
  induction partitions generalizing tree with
  | nil => exact ⟨[], rfl, by simp⟩
  | cons partition rest induction =>
      have isSpill : IsSpillPath job (spillPath (spillDirectory job) partition) := ⟨partition, rfl⟩
      rw [spillAll, perform_bind]
      have spilled := perform_spill job routed partition tree
      generalize perform (spill files job routed partition) tree = outcome at spilled
      cases spilled with
      | refused error => exact ⟨[], rfl, by simp⟩
      | stopped error bytes middle stored =>
          exact ⟨[(spillPath (spillDirectory job) partition, bytes)],
            Tree.store_all_cons stored rfl, by simpa using isSpill⟩
      | complete middle writable stored =>
          obtain ⟨others, restStored, areSpills⟩ := induction middle
          refine ⟨(spillPath (spillDirectory job) partition,
            Record.encodeAll (bucket routed partition)) :: others,
            Tree.store_all_cons stored restStored, ?_⟩
          intro file member
          rcases List.mem_cons.mp member with here | later
          · simpa only [here] using isSpill
          · exact areSpills file later

theorem spill_paths_apart (job : JobSpec) (records : UInt32 → List Record)
    {partitions : List UInt32} (nodup : partitions.Nodup) :
    (partitions.map (spillFile job records)).Pairwise fun first second =>
      first.1.same second.1 = false := by
  rw [List.pairwise_map]
  apply nodup.imp
  intro left right different
  rw [Bool.eq_false_iff]
  intro same
  simp only [spillFile] at same
  exact different (spill_path_injective same)

/-! Reducing -/

def RunStats.reduced (stats : RunStats) (records : UInt32 → List Record)
    (partitions : List UInt32) : RunStats :=
  { stats with
    recordsOut := stats.recordsOut + (partitions.map fun partition =>
      (records partition).length).sum
    chunksWritten := stats.chunksWritten + partitions.length }

theorem chunk_file_is_chunk_path {job : JobSpec} {records : UInt32 → List Record}
    {partition : UInt32} {file : Path × Bytes} (member : file ∈ chunkFiles job records partition) :
    ∃ chunk, job.chunkFor partition = some chunk ∧
      (file.1 = chunk.filePath job.output .data ∨ file.1 = chunk.filePath job.output .index) := by
  unfold chunkFiles at member
  cases found : job.chunkFor partition with
  | none =>
      rw [found] at member
      exact absurd member (by simp)
  | some chunk =>
      rw [found] at member
      refine ⟨chunk, rfl, ?_⟩
      simp only [List.mem_cons, List.not_mem_nil, or_false] at member
      rcases member with rfl | rfl
      · exact Or.inl rfl
      · exact Or.inr rfl

theorem reduce_all_ok {job : JobSpec} {partitions : List UInt32}
    {records : UInt32 → List Record} {tree after : Tree} {before stats : RunStats}
    (room : 0 < job.bufferSize)
    (writable : ∀ partition ∈ partitions, ∀ record ∈ records partition, record.Writable)
    (spilled : ∀ partition ∈ partitions,
      tree.contents? (spillPath (spillDirectory job) partition) =
        some (Record.encodeAll (records partition)))
    (done : perform (reduceAll files job partitions before) tree = (.ok stats, after)) :
    (∀ partition ∈ partitions, Reduced job records partition) ∧
      tree.storeAll (partitions.flatMap (chunkFiles job records)) = .ok after ∧
      stats = before.reduced records partitions := by
  induction partitions generalizing tree before with
  | nil =>
      rw [reduceAll, perform_pure, Prod.mk.injEq, Except.ok.injEq] at done
      exact ⟨by simp, by rw [← done.2]; rfl, by rw [← done.1]; rfl⟩
  | cons partition rest induction =>
      rw [reduceAll, perform_bind] at done
      cases first : perform (reduce files job partition) tree with
      | mk result middle =>
          cases result with
          | error error =>
              rw [first] at done
              exact absurd (congrArg Prod.fst done) (by simp)
          | ok count =>
              obtain ⟨reduced, counted, stored⟩ := reduce_ok room
                (writable partition List.mem_cons_self) (spilled partition List.mem_cons_self) first
              rw [first] at done
              have stillSpilled : ∀ other ∈ rest,
                  middle.contents? (spillPath (spillDirectory job) other) =
                    some (Record.encodeAll (records other)) := by
                intro other member
                rw [Tree.contents_store_all_elsewhere _ stored]
                · exact spilled other (List.mem_cons_of_mem _ member)
                · intro file inChunk
                  obtain ⟨chunk, _, place⟩ := chunk_file_is_chunk_path inChunk
                  rw [Path.same_comm]
                  rcases place with atData | atIndex
                  · rw [atData]
                    exact file_path_ne_spill_path _ _ _ _ _
                  · rw [atIndex]
                    exact file_path_ne_spill_path _ _ _ _ _
              obtain ⟨restReduced, restStored, restStats⟩ := induction
                (fun other member => writable other (List.mem_cons_of_mem _ member))
                stillSpilled done
              refine ⟨List.forall_mem_cons.mpr ⟨reduced, restReduced⟩, ?_, ?_⟩
              · rw [List.flatMap_cons]
                exact Tree.store_all_append stored restStored
              · rw [restStats, counted]
                simp only [RunStats.reduced, List.map_cons, List.sum_cons, List.length_cons,
                  RunStats.mk.injEq, true_and]
                omega

theorem reduce_all_exits (job : JobSpec) (partitions : List UInt32) (stats : RunStats)
    (tree : Tree) :
    ∃ stored, tree.storeAll stored = .ok (perform (reduceAll files job partitions stats) tree).2 ∧
      ∀ file ∈ stored, IsChunkPath job file.1 := by
  induction partitions generalizing tree stats with
  | nil => exact ⟨[], rfl, by simp⟩
  | cons partition rest induction =>
      obtain ⟨stored, first, areChunks⟩ := reduce_exits job partition tree
      rw [reduceAll, perform_bind]
      cases reduced : perform (reduce files job partition) tree with
      | mk result middle =>
          rw [reduced] at first
          cases result with
          | error error => exact ⟨stored, first, areChunks⟩
          | ok count =>
              obtain ⟨others, restStored, restChunks⟩ := induction
                { stats with
                  recordsOut := stats.recordsOut + count
                  chunksWritten := stats.chunksWritten + 1 } middle
              refine ⟨stored ++ others, Tree.store_all_append first restStored, ?_⟩
              intro file member
              rcases List.mem_append.mp member with inFirst | inRest
              · exact areChunks file inFirst
              · exact restChunks file inRest

/-! Running -/

theorem partitions_nodup (job : JobSpec) : (partitions job).Nodup := by
  unfold partitions
  refine List.Nodup.map_on ?_ List.nodup_range
  intro left leftMember right rightMember same
  have bound := job.reduceTasks.toNat_lt
  rw [List.mem_range] at leftMember rightMember
  have leftSmall : left < UInt32.size := Nat.lt_trans leftMember bound
  have rightSmall : right < UInt32.size := Nat.lt_trans rightMember bound
  rw [← UInt32.toNat_ofNat_of_lt' leftSmall, ← UInt32.toNat_ofNat_of_lt' rightSmall, same]

theorem mem_partitions (job : JobSpec) (partition : UInt32) :
    partition ∈ partitions job ↔ partition < job.reduceTasks := by
  rw [partitions, List.mem_map, UInt32.lt_iff_toNat_lt]
  constructor
  · rintro ⟨number, member, rfl⟩
    rw [List.mem_range] at member
    rw [UInt32.toNat_ofNat_of_lt' (Nat.lt_trans member job.reduceTasks.toNat_lt)]
    exact member
  · intro below
    exact ⟨partition.toNat, List.mem_range.mpr below, by simp⟩

theorem keeps_input_files (inv : Tree → Prop) (root : Path) :
    Keeps inv (inputFiles files root) := by
  have loop (steps : Nat) (waiting found : List Path) :
      Keeps inv (collectInputs files steps waiting found) := by
    induction steps generalizing waiting found with
    | zero => exact keeps_pure _
    | succ steps induction =>
        cases waiting with
        | nil => exact keeps_pure _
        | cons path rest =>
            unfold collectInputs
            exact keeps_bind (keeps_list inv path) fun _ => induction _ _
  exact keeps_bind (keeps_lift fun _ holds => holds) fun _ => loop _ _ _

/-- What a run that succeeded has done: it mapped the input, and the tree holds one spill and one
chunk more for every partition. -/
structure Ran (job : JobSpec) (tree after : Tree) (inputs : List Path) (mapped : Mapped) :
    Prop where
  found : perform (inputFiles files job.input) tree = (.ok inputs, tree)
  adds : Adds job (linesOf tree inputs) ⟨0, []⟩ mapped
  stored : ∃ made spilled : Tree, tree.createDirectories (spillDirectory job) = .ok made ∧
    made.storeAll ((partitions job).map (spillFile job (bucket mapped.routed.reverse))) =
      .ok spilled ∧
    spilled.storeAll ((partitions job).flatMap (chunkFiles job (bucket mapped.routed.reverse))) =
      .ok after
  reduced : ∀ partition ∈ partitions job, Reduced job (bucket mapped.routed.reverse) partition

theorem run_ok {job : JobSpec} {tree after : Tree} {stats : RunStats} (room : 0 < job.bufferSize)
    (done : perform (run files job) tree = (.ok stats, after)) :
    ∃ inputs mapped, Ran job tree after inputs mapped ∧
      stats = RunStats.reduced ⟨inputs.length, mapped.recordsIn, 0, 0⟩
        (bucket mapped.routed.reverse) (partitions job) := by
  unfold run at done
  split at done
  · obtain ⟨_, _, thrown, _⟩ := bind_ok done
    exact absurd (congrArg Prod.fst thrown) (by simp)
  obtain ⟨inputs, found, finding, mappingOn⟩ := bind_ok done
  have keptFinding := tree_of_keeps (fun inv => keeps_input_files inv job.input) tree
  rw [adapt_ok finding] at keptFinding
  have sameFound : found = tree := (Prod.mk.inj keptFinding).2
  rw [sameFound] at finding mappingOn
  obtain ⟨mapped, mappedTree, mapping, spillingOn⟩ := bind_ok mappingOn
  obtain ⟨sameMapped, adds⟩ := map_files_ok room mapping
  rw [sameMapped] at spillingOn
  obtain ⟨_, made, making, writingOn⟩ := bind_ok spillingOn
  have directories : tree.createDirectories (spillDirectory job) = .ok made := by
    have making := adapt_ok making
    rw [perform_create_directories] at making
    cases directories : tree.createDirectories (spillDirectory job) with
    | error error =>
        rw [directories] at making
        exact absurd (congrArg Prod.fst making) (by simp)
    | ok made' =>
        rw [directories] at making
        rw [(Prod.mk.inj making).2]
  obtain ⟨_, spilled, spilling, reducing⟩ := bind_ok writingOn
  obtain ⟨writable, spills⟩ := spill_all_ok (adapt_ok spilling)
  have there : ∀ partition ∈ partitions job,
      spilled.contents? (spillPath (spillDirectory job) partition) =
        some (Record.encodeAll (bucket mapped.routed.reverse partition)) := by
    intro partition member
    exact Tree.contents_store_all (spill_paths_apart job _ (partitions_nodup job)) spills
      (List.mem_map_of_mem member)
  obtain ⟨reduced, chunks, counted⟩ := reduce_all_ok room writable there reducing
  exact ⟨inputs, mapped, ⟨adapt_ok finding, adds, ⟨made, spilled, directories, spills, chunks⟩,
    reduced⟩, counted⟩

/-- However a run ends, it has changed nothing, or it has made the spill directory and stored files
at places for spills and for chunks. -/
theorem run_exits (job : JobSpec) (tree : Tree) :
    (perform (run files job) tree).2 = tree ∨
      ∃ made stored, tree.createDirectories (spillDirectory job) = .ok made ∧
        made.storeAll stored = .ok (perform (run files job) tree).2 ∧
        ∀ file ∈ stored, IsSpillPath job file.1 ∨ IsChunkPath job file.1 := by
  unfold run
  split
  · exact Or.inl (by rw [perform_bind_error (perform_throw _ tree)])
  have finding := tree_of_keeps (fun inv => keeps_input_files inv job.input) tree
  rw [perform_bind, perform_adapt, finding]
  cases (perform (inputFiles files job.input) tree).1 with
  | error error => exact Or.inl rfl
  | ok inputs =>
      simp only [map_error_ok]
      have mapping := tree_of_keeps (fun inv => keeps_map_files inv job inputs ⟨0, []⟩) tree
      rw [perform_bind, mapping]
      cases (perform (mapFiles files job inputs ⟨0, []⟩) tree).1 with
      | error error => exact Or.inl rfl
      | ok mapped =>
          simp only
          rw [perform_bind, perform_adapt, perform_create_directories]
          cases directories : tree.createDirectories (spillDirectory job) with
          | error error => exact Or.inl rfl
          | ok made =>
              right
              simp only [map_error_ok]
              obtain ⟨spills, spilled, areSpills⟩ := spill_all_exits job mapped.routed.reverse
                (partitions job) made
              rw [perform_bind, perform_adapt]
              cases spilling : perform (spillAll files job mapped.routed.reverse
                  (partitions job)) made with
              | mk result between =>
                  rw [spilling] at spilled
                  cases result with
                  | error error =>
                      exact ⟨made, spills, rfl, spilled, fun file member =>
                        Or.inl (areSpills file member)⟩
                  | ok value =>
                      simp only [map_error_ok]
                      obtain ⟨chunks, reduced, areChunks⟩ := reduce_all_exits job (partitions job)
                        ⟨inputs.length, mapped.recordsIn, 0, 0⟩ between
                      refine ⟨made, spills ++ chunks, rfl,
                        Tree.store_all_append spilled reduced, ?_⟩
                      intro file member
                      rcases List.mem_append.mp member with inSpills | inChunks
                      · exact Or.inl (areSpills file inSpills)
                      · exact Or.inr (areChunks file inChunks)

end ChunkStore.Local
