import ChunkStore.Proofs.Aggregation
import ChunkStore.Proofs.RunLayout

/-!
A checksummed build that succeeds is the planned layout and verifies. The run leaves the chunks of
every node in its directory, the checksum stage digests them in checksum order and signs the
directories in the order of the cluster, and nothing of this changes afterwards.
-/

namespace ChunkStore

set_option autoImplicit false

open Stateful Memory Checksum

def ChunkFile.numbered : ChunkFile → Nat → String
  | .data, number => s!"{number}.data"
  | .index, number => s!"{number}.index"

def chunkPaths (directory : Path) (count : Nat) (file : ChunkFile) : List Path :=
  (List.range count).map fun index => directory.join (file.numbered index)

/-! The order of the files of chunks -/

theorem kind_of_chunk_file (chunk : ChunkId) (output : Path) (file : ChunkFile) (size : Nat) :
    EntryKind.ofStatus (.file (chunk.filePath output file) size) = file.kind :=
  kind_of_chunk_name rfl (name_file_path chunk output file)

theorem chunk_file_is_input (chunk : ChunkId) (output : Path) (file : ChunkFile) (size : Nat) :
    (!(Status.file (chunk.filePath output file) size).isDirectory &&
      !(Status.file (chunk.filePath output file) size).isHidden &&
      (Status.file (chunk.filePath output file) size).name != manifestName) = true := by
  have name : (Status.file (chunk.filePath output file) size).name = chunk.fileName file :=
    name_file_path chunk output file
  rw [shown_of_chunk_name name, name, bne_iff_ne.mpr (file_name_ne_manifest chunk file)]
  rfl

theorem mem_chunk_statuses {output : Path} {node : UInt32} {count : Nat}
    {size : Nat → ChunkFile → Nat} {status : Status}
    (member : status ∈ Local.chunkStatuses output node count size) :
    ∃ chunk file length, status = .file (ChunkId.filePath chunk output file) length := by
  obtain ⟨index, _, inChunk⟩ := List.mem_flatMap.mp member
  simp only [List.mem_cons, List.not_mem_nil, or_false] at inChunk
  rcases inChunk with rfl | rfl
  · exact ⟨_, _, _, rfl⟩
  · exact ⟨_, _, _, rfl⟩

theorem paths_of_kind (output : Path) (node : UInt32) {count : Nat}
    (small : count ≤ UInt32.size) (size : Nat → ChunkFile → Nat) (file : ChunkFile) :
    (ChecksumOrder.ofKind file.kind (Local.chunkStatuses output node count size)).map (·.path) =
      chunkPaths (nodeDirectory output node) count file := by
  rw [ChecksumOrder.ofKind, Local.chunkStatuses, List.filter_flatMap, List.map_flatMap, chunkPaths,
    List.map_eq_flatMap]
  apply List.flatMap_congr
  intro index inside
  have number : (UInt32.ofNat index).toNat = index :=
    UInt32.toNat_ofNat_of_lt' (Nat.lt_of_lt_of_le (List.mem_range.mp inside) small)
  have name : (nodeDirectory output node).join (file.numbered index) =
      ChunkId.filePath ⟨node, UInt32.ofNat index⟩ output file := by
    cases file <;>
      simp only [ChunkId.filePath, ChunkId.fileName, ChunkId.dataName, ChunkId.indexName, number,
        ChunkFile.numbered]
  rw [name, List.filter_cons, List.filter_cons, List.filter_nil, kind_of_chunk_file,
    kind_of_chunk_file]
  cases file <;> rfl

/-- A directory of chunks is digested data files first, each kind as the order arranges it. -/
theorem inputs_of_chunk_statuses (order : ChecksumOrder) (output : Path) (node : UInt32)
    {count : Nat} (small : count ≤ UInt32.size) (size : Nat → ChunkFile → Nat) :
    ∃ data index,
      (order.inputs manifestName (Local.chunkStatuses output node count size)).map (·.path) =
        data ++ index ∧
      order.Arranges (chunkPaths (nodeDirectory output node) count .data) data ∧
      order.Arranges (chunkPaths (nodeDirectory output node) count .index) index := by
  have kept : order.inputs manifestName (Local.chunkStatuses output node count size) =
      order.arrange (Local.chunkStatuses output node count size) := by
    apply List.filter_eq_self.mpr
    intro status member
    obtain ⟨chunk, file, length, rfl⟩ := mem_chunk_statuses (List.mem_mergeSort.mp member)
    exact chunk_file_is_input chunk output file length
  have noDirectory : ChecksumOrder.ofKind .directory
      (order.arrange (Local.chunkStatuses output node count size)) = [] := by
    apply List.filter_eq_nil_iff.mpr
    intro status member
    obtain ⟨chunk, file, length, rfl⟩ := mem_chunk_statuses (List.mem_mergeSort.mp member)
    rw [kind_of_chunk_file]
    cases file <;> decide
  have arranged (file : ChunkFile) :=
    order.arranges_kind file.kind (Local.chunkStatuses output node count size)
  simp only [paths_of_kind output node small size] at arranged
  refine ⟨_, _, ?_, arranged .data, arranged .index⟩
  conv_lhs => rw [kept, order.arrange_by_kind, noDirectory, List.nil_append, List.map_append]
  rfl

/-! Aggregating what a run laid out -/

/-- A digest of a planned directory: its files are those of so many chunks, data files before index
files and each kind as the order arranges it, and the digest is in the manifest. -/
structure PlannedDigest (order : ChecksumOrder) (chunks : Nat) (tree : Tree)
    (node : NodeDigest) : Prop where
  files : ∃ data index, node.files = data ++ index ∧
    order.Arranges (chunkPaths node.directory chunks .data) data ∧
    order.Arranges (chunkPaths node.directory chunks .index) index
  manifest : tree.contents? (manifestPath node.directory) = some node.digest

namespace Local.LaidOut

variable {job : JobSpec} {tree : Tree} (laid : LaidOut job tree)

include laid

theorem directories_of :
    nodeDirectoriesOf tree job.output = .ok (job.nodeIds.map (nodeDirectory job.output)) := by
  rw [nodeDirectoriesOf, Tree.list_directory laid.isDirectory, laid.nodes]
  simp [List.filter_map, Function.comp_def, Status.directory]

theorem mem_directories {directory : Path}
    (member : directory ∈ job.nodeIds.map (nodeDirectory job.output)) :
    directory.isChildOf job.output = true ∧ (tree.node? directory).isSome := by
  obtain ⟨node, isNode, rfl⟩ := List.mem_map.mp member
  refine ⟨node_directory_child job.output node, ?_⟩
  rw [laid.nodeIsDirectory node isNode]
  rfl

theorem planned_files {order : ChecksumOrder} {directory : Path} {node : NodeDigest}
    (member : directory ∈ job.nodeIds.map (nodeDirectory job.output))
    (digested : nodeDigest order tree directory = .ok node) :
    ∃ data index, node.files = data ++ index ∧
      order.Arranges (chunkPaths node.directory job.chunks.toNat .data) data ∧
      order.Arranges (chunkPaths node.directory job.chunks.toNat .index) index := by
  obtain ⟨id, isNode, rfl⟩ := List.mem_map.mp member
  obtain ⟨size, children⟩ := laid.chunks id isNode
  obtain ⟨owner, entries, listed, paths⟩ := fields_of_digest digested
  rw [Tree.list_directory (laid.nodeIsDirectory id isNode), children, Except.ok.injEq] at listed
  rw [paths, owner, ← listed]
  exact inputs_of_chunk_statuses order job.output id job.chunks.toNat_lt.le size

/-- Where no read fails, aggregating what a run left with success digests and signs the directory
of every node, and checking with buffers of any size finds them all right. -/
theorem aggregate_ok {options : ChecksumOptions} {after : Tree} {nodes : List NodeDigest}
    (distinct : job.nodeIds.Nodup) (healthy : tree.failing = [])
    (done : perform (aggregateAll files options job.output) tree = (.ok nodes, after)) :
    nodes.map (·.directory) = job.nodeIds.map (nodeDirectory job.output) ∧
      (∀ node ∈ nodes, PlannedDigest options.order job.chunks.toNat after node) ∧
      ∀ bufferSize, perform (verifyAll files ⟨bufferSize, options.order⟩ job.output) after =
        (.ok (nodes.map fun node => (node.directory, .matching node.digest)), after) := by
  rw [aggregateAll, perform_bind, perform_node_directories, laid.directories_of] at done
  simp only at done
  obtain ⟨directories, stored, digested⟩ := aggregate_each_ok
    (fun directory member => laid.mem_directories member) laid.isDirectory done
  have among {node : NodeDigest} (member : node ∈ nodes) :
      node.directory ∈ job.nodeIds.map (nodeDirectory job.output) := by
    rw [← directories]
    exact List.mem_map_of_mem member
  have there (node : NodeDigest) (member : node ∈ nodes) :=
    laid.mem_directories (among member)
  have same : SameDigests options.order job.output tree after :=
    same_digests_store_all there laid.isDirectory stored
  have apart : (nodes.map manifestFile).Pairwise fun first second =>
      first.1.same second.1 = false := by
    have beside : (nodes.map (·.directory)).Pairwise fun first second =>
        first.same second = false := by
      rw [directories, List.pairwise_map]
      exact distinct.imp node_directories_apart
    refine List.pairwise_map.mpr ((List.pairwise_map.mp beside).imp ?_)
    intro left right different
    rw [Bool.eq_false_iff, Ne, manifestFile, manifestFile, manifest_same_iff, different]
    exact Bool.false_ne_true
  have signed : ∀ node ∈ nodes, after.contents? (manifestPath node.directory) = some node.digest :=
    fun node member => Tree.contents_store_all apart stored (List.mem_map_of_mem member)
  refine ⟨directories, ?_, ?_⟩
  · intro node member
    exact ⟨laid.planned_files (among member) (digested node member), signed node member⟩
  · intro bufferSize
    refine verify_all_matches ?_ ?_ ?_ signed
    · rw [Tree.failing_store_all stored, healthy]
    · rw [directories, ← laid.directories_of, nodeDirectoriesOf, nodeDirectoriesOf, Tree.list,
        Tree.list, same.node, same.children]
    · intro node member
      rw [same.digest node.directory (there node member).1]
      exact digested node member

end Local.LaidOut

namespace Builder

/-- A checksummed build that succeeds digests the directory of every node once, in the order of
the cluster; the files are exactly the planned chunks, the manifests hold the digests, and checking
the output finds all of these directories right and no others. -/
theorem checksummed_build_is_planned_layout (builder : Builder) (submission : Submission)
    (tree after : Tree) (summary : BuildSummary) (rooted : tree.Rooted)
    (healthy : tree.failing = []) (distinct : (builder.cluster.nodes.map (·.id)).Nodup)
    (enabled : builder.config.checksumEnabled = true)
    (outside : builder.config.temp.startsWith builder.config.output = false)
    (outsideTemp : builder.config.output.startsWith builder.config.temp = false)
    (done : (build files (Local.engine files) builder submission).run.run tree =
      (.ok summary, after)) :
    summary.checksums.map (·.directory) =
        builder.cluster.nodes.map (fun node => nodeDirectory builder.config.output node.id) ∧
      (∀ node ∈ summary.checksums,
        PlannedDigest builder.config.checksum.order summary.plan.chunksPerNode.toNat after node) ∧
      ∀ bufferSize, (verifyAll files ⟨bufferSize, builder.config.checksum.order⟩
        builder.config.output).run.run after =
          (.ok (summary.checksums.map fun node => (node.directory, .matching node.digest)),
            after) := by
  have absent := absent_of_ok done
  have notRoot : builder.config.output.isRoot = false := (Bool.or_eq_false_iff.mp absent).1
  have outcome := build_cases builder submission absent
  rw [perform_eq_run, done] at outcome
  cases outcome with
  | complete inputBytes stats middle _ nodes ran checked =>
      have planned := job_planned builder submission inputBytes distinct
        (Local.run_has_partitions ran)
      obtain ⟨laid, sameFailing⟩ := Local.run_lays_out planned distinct notRoot
        (Tree.vacant_delete (Tree.vacant_of_absent rooted absent) _) outside outsideTemp
        builder.config.valid.bufferSize_pos ran
      rw [checksums, if_pos enabled] at checked
      obtain ⟨directories, digests, verified⟩ :=
        laid.aggregate_ok distinct (sameFailing.trans healthy) checked
      refine ⟨?_, digests, verified⟩
      rw [directories, JobSpec.nodeIds, List.map_map]
      rfl

theorem checksums_of_one {config : BuildConfig} {tree : Tree} {directory : Path}
    (enabled : config.checksumEnabled = true)
    (listed : nodeDirectoriesOf tree config.output = .ok [directory])
    (digested : (nodeDigest config.checksum.order tree directory).isOk = true)
    (created : (tree.create (manifestPath directory)).isOk = true) :
    ∃ nodes after, perform (checksums files config) tree = (.ok nodes, after) := by
  obtain ⟨node, isNode⟩ := exists_ok digested
  obtain ⟨made, isMade⟩ := exists_ok created
  have aggregated := @aggregate_succeeds config.checksum _ _ _ _ isNode isMade
  rw [checksums, if_pos enabled, aggregateAll, perform_bind, perform_node_directories, listed]
  simp only [List.mapM_cons, List.mapM_nil]
  rw [perform_bind_ok aggregated]
  exact ⟨_, _, rfl⟩

def sampleTree : Tree := Tree.empty.addFile (.ofText "/in/a") [107, 9, 118, 10]

def sampleRun : Except EngineError Local.RunStats × Tree :=
  (Local.run files (sampleBuilder.job ⟨"job", "now"⟩ (sampleBuilder.plan 4))).run.run
    (sampleTree.delete sampleBuilder.config.temp)

/-- What the stages after the sample run ask about it, in one evaluation of the run. -/
theorem sample_run_leaves :
    sampleRun.1 = .ok ⟨1, 1, 1, 2⟩ ∧
      nodeDirectoriesOf sampleRun.2 sampleBuilder.config.output = .ok [.ofText "/out/node-3"] ∧
      (nodeDigest .listing sampleRun.2 (.ofText "/out/node-3")).isOk = true ∧
      (sampleRun.2.create (manifestPath (.ofText "/out/node-3"))).isOk = true := by
  rw [node_digest_listing]
  decide +kernel

theorem sample_build_done :
    ∃ summary after, (build files (Local.engine files) sampleBuilder ⟨"job", "now"⟩).run.run
      sampleTree = (.ok summary, after) := by
  obtain ⟨ran, listed, digested, created⟩ := sample_run_leaves
  have sized : (perform (Scan.size files sampleBuilder.config.input)
      (sampleTree.delete sampleBuilder.config.temp)).1 = .ok 4 := by decide +kernel
  have whole : perform (Local.run files (sampleBuilder.job ⟨"job", "now"⟩ (sampleBuilder.plan 4)))
      (sampleTree.delete sampleBuilder.config.temp) = (.ok ⟨1, 1, 1, 2⟩, sampleRun.2) := by
    rw [← ran]
    exact (Prod.eta sampleRun).symm
  obtain ⟨nodes, after, checked⟩ := checksums_of_one rfl listed digested created
  exact ⟨_, _, build_of_stages (by decide) sized whole checked⟩

theorem sample_build_is_planned_layout :
    ∃ summary after, (build files (Local.engine files) sampleBuilder ⟨"job", "now"⟩).run.run
        sampleTree = (.ok summary, after) ∧
      summary.checksums.map (·.directory) = [nodeDirectory (.ofText "/out") 3] ∧
      (∀ node ∈ summary.checksums,
        PlannedDigest .listing summary.plan.chunksPerNode.toNat after node) ∧
      ∀ bufferSize, (verifyAll files ⟨bufferSize, .listing⟩ (.ofText "/out")).run.run after =
        (.ok (summary.checksums.map fun node => (node.directory, .matching node.digest)),
          after) := by
  obtain ⟨summary, after, done⟩ := sample_build_done
  exact ⟨summary, after, done, checksummed_build_is_planned_layout sampleBuilder ⟨"job", "now"⟩
    sampleTree after summary (by decide) rfl (by decide) rfl (by decide) (by decide) done⟩

end Builder

end ChunkStore
