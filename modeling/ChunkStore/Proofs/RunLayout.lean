import ChunkStore.Proofs.Building
import ChunkStore.Proofs.Conservation
import ChunkStore.Proofs.Layout
import ChunkStore.Proofs.Planning

/-!
What a run that succeeds leaves under an output where nothing was: a directory for every node in
the order of the cluster, and in each of them the data and the index file of one chunk after the
other.
-/

namespace ChunkStore

set_option autoImplicit false

open Stateful Memory

/-! Places where nothing is -/

namespace Memory.Tree

theorem vacant_delete {tree : Tree} {output : Path} (vacant : tree.Vacant output) (path : Path) :
    (tree.delete path).Vacant output := by
  intro place below
  rw [node_delete, vacant place below]
  split <;> rfl

theorem leads_to_apart {path output place : Path} (apart : ¬ output.parts <+: path.parts)
    (below : place.startsWith output = true) : leadsTo place path = false := by
  rw [Bool.eq_false_iff, Ne, leadsTo, Bool.and_eq_true, Path.starts_with_iff_parts]
  rintro ⟨beginning, _⟩
  exact apart (((Path.starts_with_iff_parts place output).mp below).trans beginning)

theorem vacant_ensure {tree : Tree} {output path : Path} (vacant : tree.Vacant output)
    (apart : ¬ output.parts <+: path.parts) : (tree.ensureDirectories path).Vacant output := by
  intro place below
  rw [node_ensure, vacant place below, leads_to_apart apart below]
  rfl

theorem vacant_store_all {tree after : Tree} {output : Path} {stored : List (Path × Bytes)}
    (vacant : tree.Vacant output) (apart : ∀ file ∈ stored, ¬ output.parts <+: file.1.parts)
    (done : tree.storeAll stored = .ok after) : after.Vacant output := by
  refine store_all_keeps (fun now => now.Vacant output) ?_ vacant done
  intro file member before next holds first place below
  have elsewhere : place.same file.1 = false := by
    rw [Bool.eq_false_iff, Ne, Path.same_iff_parts]
    intro same
    rw [Path.starts_with_iff_parts, same] at below
    exact apart file member below
  have beside : leadsAbove place file.1 = false := by
    rw [leadsAbove, leads_to_apart (apart file member) below]
    rfl
  rw [node_store_elsewhere first elsewhere beside, holds place below]

theorem children_of_vacant {tree : Tree} {output directory : Path} (vacant : tree.Vacant output)
    (below : directory.startsWith output = true) : tree.children directory = [] := by
  apply List.eq_nil_iff_forall_not_mem.mpr
  intro status member
  obtain ⟨there, child⟩ := present_of_child member
  obtain ⟨part, _, parts⟩ := (Path.is_child_iff _ _).mp child
  have inside : status.path.startsWith output = true := by
    rw [Path.starts_with_iff_parts] at below ⊢
    rw [parts]
    exact below.trans (List.prefix_append _ _)
  rw [vacant _ inside] at there
  exact absurd there (by simp)

end Memory.Tree

namespace Local

/-! The chunks of a node -/

theorem file_is_child_iff (chunk : ChunkId) (output : Path) (file : ChunkFile) (node : UInt32) :
    (chunk.filePath output file).isChildOf (nodeDirectory output node) = true ↔
      chunk.node = node := by
  rw [ChunkId.filePath, Path.join_is_child_iff _ _ _ (plain_file_name chunk file)]
  constructor
  · intro same
    exact (node_directory_injective same).symm
  · rintro rfl
    rfl

def idAt (job : JobSpec) (position : Nat) : UInt32 := job.nodeIds.getD position 0

theorem id_at_eq {job : JobSpec} {position : Nat} (node : position < job.nodeIds.length) :
    idAt job position = job.nodeIds[position] := by
  rw [idAt, List.getD_eq_getElem?_getD, List.getElem?_eq_getElem node]
  rfl

def nodeFiles (job : JobSpec) (records : UInt32 → List Record) (position : Nat) :
    List (Path × Bytes) :=
  (List.range job.chunks.toNat).flatMap fun index =>
    chunkFiles job records (partitionAt job position index)

def fileSize (job : JobSpec) (records : UInt32 → List Record) (position index : Nat)
    (file : ChunkFile) : Nat :=
  ((job.writer.emit (Record.sortByKey (records (partitionAt job position index)))).contents
    file).length

def chunkStatuses (output : Path) (node : UInt32) (count : Nat) (size : Nat → ChunkFile → Nat) :
    List Status :=
  (List.range count).flatMap fun index =>
    [.file (ChunkId.filePath ⟨node, UInt32.ofNat index⟩ output .data) (size index .data),
      .file (ChunkId.filePath ⟨node, UInt32.ofNat index⟩ output .index) (size index .index)]

theorem chunk_files_by_node {job : JobSpec} (planned : job.Planned)
    (records : UInt32 → List Record) :
    (partitions job).flatMap (chunkFiles job records) =
      (List.range job.nodeIds.length).flatMap (nodeFiles job records) := by
  rw [partitions_by_node planned, List.flatMap_assoc, JobSpec.nodeIds, List.length_map]
  simp only [List.flatMap_map]
  rfl

section node

variable {job : JobSpec} (planned : job.Planned) (records : UInt32 → List Record) {position : Nat}
  (node : position < job.nodeIds.length)

include planned node

theorem chunk_files_at {index : Nat} (chunk : index < job.chunks.toNat) :
    ∃ dataBytes indexBytes, chunkFiles job records (partitionAt job position index) =
      [(ChunkId.filePath ⟨idAt job position, UInt32.ofNat index⟩ job.output .data, dataBytes),
        (ChunkId.filePath ⟨idAt job position, UInt32.ofNat index⟩ job.output .index, indexBytes)] ∧
      dataBytes.length = fileSize job records position index .data ∧
      indexBytes.length = fileSize job records position index .index := by
  rw [chunkFiles, chunk_of_partition_at planned node chunk, id_at_eq node]
  exact ⟨_, _, rfl, rfl, rfl⟩

theorem mem_node_files {file : Path × Bytes} (member : file ∈ nodeFiles job records position) :
    ∃ (chunk : ChunkId) (which : ChunkFile),
      chunk.node = idAt job position ∧ file.1 = chunk.filePath job.output which := by
  obtain ⟨index, inside, inChunk⟩ := List.mem_flatMap.mp member
  obtain ⟨dataBytes, indexBytes, shape, _⟩ :=
    chunk_files_at planned records node (List.mem_range.mp inside)
  rw [shape] at inChunk
  simp only [List.mem_cons, List.not_mem_nil, or_false] at inChunk
  rcases inChunk with rfl | rfl
  · exact ⟨⟨_, _⟩, .data, rfl, rfl⟩
  · exact ⟨⟨_, _⟩, .index, rfl, rfl⟩

theorem statuses_node_files :
    (nodeFiles job records position).map (fun file => Status.file file.1 file.2.length) =
      chunkStatuses job.output (idAt job position) job.chunks.toNat
        (fileSize job records position) := by
  rw [nodeFiles, chunkStatuses, List.map_flatMap]
  apply List.flatMap_congr
  intro index inside
  obtain ⟨dataBytes, indexBytes, shape, dataLength, indexLength⟩ :=
    chunk_files_at planned records node (List.mem_range.mp inside)
  rw [shape, ← dataLength, ← indexLength]
  rfl

theorem node_files_ne_nil : nodeFiles job records position ≠ [] := by
  have first : 0 < job.chunks.toNat := UInt32.le_iff_toNat_le.mp planned.chunks
  obtain ⟨dataBytes, indexBytes, shape, _⟩ := chunk_files_at planned records node first
  have member : (ChunkId.filePath ⟨idAt job position, UInt32.ofNat 0⟩ job.output .data, dataBytes) ∈
      nodeFiles job records position := by
    refine List.mem_flatMap.mpr ⟨0, List.mem_range.mpr first, ?_⟩
    rw [shape]
    exact List.mem_cons_self
  exact List.ne_nil_of_mem member

end node

theorem node_directory_below (output : Path) (node : UInt32) :
    (nodeDirectory output node).startsWith output = true := by
  rw [Path.starts_with_iff_parts, parts_node_directory]
  exact List.prefix_append _ _

theorem id_at_injective {job : JobSpec} (distinct : job.nodeIds.Nodup) {left right : Nat}
    (leftInside : left < job.nodeIds.length) (rightInside : right < job.nodeIds.length)
    (same : idAt job left = idAt job right) : left = right := by
  rw [id_at_eq leftInside, id_at_eq rightInside] at same
  exact (List.Nodup.getElem_inj_iff distinct).mp same

def allFiles (job : JobSpec) (records : UInt32 → List Record) : List (Path × Bytes) :=
  (List.range job.nodeIds.length).flatMap (nodeFiles job records)

section all

variable {job : JobSpec} (planned : job.Planned) {records : UInt32 → List Record}

include planned

theorem parent_node_file {position : Nat} (node : position ∈ List.range job.nodeIds.length)
    {file : Path × Bytes} (member : file ∈ nodeFiles job records position) :
    file.1.parent? = some (nodeDirectory job.output (idAt job position)) := by
  obtain ⟨chunk, which, isNode, place⟩ :=
    mem_node_files planned records (List.mem_range.mp node) member
  rw [place, parent_file_path, isNode]

theorem length_file {file : Path × Bytes} (member : file ∈ allFiles job records) :
    file.1.parts.length = job.output.parts.length + 2 := by
  obtain ⟨position, node, inNode⟩ := List.mem_flatMap.mp member
  rw [Path.length_parent (parent_node_file planned node inNode),
    Path.length_child (node_directory_child job.output (idAt job position))]

theorem shallow_apart (place : Path) (shallow : place.parts.length ≤ job.output.parts.length + 1)
    {file : Path × Bytes} (member : file ∈ allFiles job records) :
    place.same file.1 = false := by
  apply Path.not_same_of_length
  rw [length_file planned member]
  omega

theorem starts_with_output {file : Path × Bytes} (member : file ∈ allFiles job records) :
    file.1.startsWith job.output = true := by
  obtain ⟨position, node, inNode⟩ := List.mem_flatMap.mp member
  obtain ⟨chunk, which, _, place⟩ :=
    mem_node_files planned records (List.mem_range.mp node) inNode
  rw [place, Path.starts_with_iff_parts, parts_file_path, parts_node_directory, List.append_assoc]
  exact List.prefix_append _ _

variable {tree after : Tree} (vacant : tree.Vacant job.output)
  (done : tree.storeAll (allFiles job records) = .ok after)

include vacant done

theorem output_is_directory (present : job.nodeIds ≠ []) (notRoot : job.output.isRoot = false) :
    after.node? job.output = some .directory := by
  have some : 0 ∈ List.range job.nodeIds.length :=
    List.mem_range.mpr (List.length_pos_iff.mpr present)
  obtain ⟨file, inNode⟩ := List.exists_mem_of_ne_nil _
    (node_files_ne_nil planned records (List.mem_range.mp some))
  have member : file ∈ allFiles job records := List.mem_flatMap.mpr ⟨0, some, inNode⟩
  have apart := fun other (isFile : other ∈ allFiles job records) =>
    shallow_apart planned job.output (by omega) isFile
  refine Tree.node_above_store_all (Or.inl ?_) apart member ?_ done
  · exact vacant job.output ((Path.starts_with_iff_parts _ _).mpr (List.prefix_refl _))
  · rw [Tree.leadsAbove, Tree.leadsTo, starts_with_output planned member, notRoot,
      apart file member]
    rfl

theorem node_is_directory {position : Nat} (node : position < job.nodeIds.length) :
    after.node? (nodeDirectory job.output (idAt job position)) = some .directory := by
  have isPosition := List.mem_range.mpr node
  have child := node_directory_child job.output (idAt job position)
  obtain ⟨file, inNode⟩ := List.exists_mem_of_ne_nil _ (node_files_ne_nil planned records node)
  have member : file ∈ allFiles job records := List.mem_flatMap.mpr ⟨position, isPosition, inNode⟩
  refine Tree.node_above_store_all (Or.inl (vacant _ (node_directory_below _ _))) ?_ member
    (Tree.leads_above_owned child (parent_node_file planned isPosition inNode)) done
  intro other isFile
  exact shallow_apart planned _ (Path.length_child child).le isFile

variable (distinct : job.nodeIds.Nodup)

include distinct

theorem children_output :
    after.children job.output =
      job.nodeIds.map fun node => .directory (nodeDirectory job.output node) := by
  have listed := Tree.children_store_blocks
    (fun position _ => node_directory_child job.output (idAt job position)) ?_
    (fun position node file inNode => parent_node_file planned node inNode)
    (fun position _ => vacant _ (node_directory_below _ _))
    (fun position node => node_files_ne_nil planned records (List.mem_range.mp node)) done
  · rw [listed, Tree.children_of_vacant vacant
      ((Path.starts_with_iff_parts _ _).mpr (List.prefix_refl _)), List.nil_append]
    apply List.ext_getElem (by simp)
    intro position left right
    rw [List.length_map] at right
    simp [id_at_eq right]
  · apply List.pairwise_lt_range.imp_of_mem
    intro left right leftInside rightInside less
    apply node_directories_apart
    intro same
    have equal := id_at_injective distinct (List.mem_range.mp leftInside)
      (List.mem_range.mp rightInside) same
    omega

theorem children_node {position : Nat} (node : position < job.nodeIds.length) :
    after.children (nodeDirectory job.output (idAt job position)) =
      chunkStatuses job.output (idAt job position) job.chunks.toNat
        (fileSize job records position) := by
  have child := Path.length_child (node_directory_child job.output (idAt job position))
  have apart : (allFiles job records).Pairwise fun first second =>
      first.1.same second.1 = false := by
    rw [allFiles, ← chunk_files_by_node planned]
    exact chunk_files_apart distinct records (partitions_nodup job)
  have listed := Tree.children_store_all (nodeDirectory job.output (idAt job position)) ?_ apart
    (fun file member => vacant _ (starts_with_output planned member)) done
  · have own : ((allFiles job records).filter fun file =>
        file.1.isChildOf (nodeDirectory job.output (idAt job position))) =
          nodeFiles job records position := by
      apply Tree.filter_flatMap_block List.nodup_range (List.mem_range.mpr node)
      · intro file inNode
        obtain ⟨chunk, which, isNode, place⟩ := mem_node_files planned records node inNode
        rw [place, (file_is_child_iff _ _ _ _).mpr isNode]
      · intro other inside different file inNode
        have otherNode := List.mem_range.mp inside
        obtain ⟨chunk, which, isNode, place⟩ := mem_node_files planned records otherNode inNode
        rw [place, Bool.eq_false_iff, Ne, file_is_child_iff, isNode]
        exact fun same => different (id_at_injective distinct otherNode node same)
    rw [listed, Tree.children_of_vacant vacant (node_directory_below _ _), List.nil_append, own,
      statuses_node_files planned records node]
  · intro file member
    rw [length_file planned member, child]

end all

/-- What a run leaves under its output. -/
structure LaidOut (job : JobSpec) (after : Tree) : Prop where
  isDirectory : after.node? job.output = some .directory
  nodes : after.children job.output =
    job.nodeIds.map fun node => .directory (nodeDirectory job.output node)
  nodeIsDirectory : ∀ node ∈ job.nodeIds,
    after.node? (nodeDirectory job.output node) = some .directory
  chunks : ∀ node ∈ job.nodeIds, ∃ size, after.children (nodeDirectory job.output node) =
    chunkStatuses job.output node job.chunks.toNat size

/-- Chunks that are all stored where nothing was lie as they are planned. -/
theorem laid_out_store_all {job : JobSpec} {tree after : Tree} {records : UInt32 → List Record}
    (planned : job.Planned) (distinct : job.nodeIds.Nodup) (notRoot : job.output.isRoot = false)
    (vacant : tree.Vacant job.output)
    (done : tree.storeAll ((partitions job).flatMap (chunkFiles job records)) = .ok after) :
    LaidOut job after := by
  rw [chunk_files_by_node planned] at done
  have present : job.nodeIds ≠ [] := by
    intro none
    exact job.cluster.nodes_ne_nil (List.map_eq_nil_iff.mp none)
  have at_position {node : UInt32} (member : node ∈ job.nodeIds) :
      ∃ position, position < job.nodeIds.length ∧ idAt job position = node := by
    obtain ⟨position, inside, same⟩ := List.getElem_of_mem member
    exact ⟨position, inside, by rw [id_at_eq inside, same]⟩
  refine ⟨output_is_directory planned vacant done present notRoot,
    children_output planned vacant done distinct, ?_, ?_⟩
  · intro node member
    obtain ⟨position, inside, rfl⟩ := at_position member
    exact node_is_directory planned vacant done inside
  · intro node member
    obtain ⟨position, inside, rfl⟩ := at_position member
    exact ⟨_, children_node planned vacant done distinct inside⟩

theorem not_below_both {temp output : Path} (outside : temp.startsWith output = false)
    (outsideTemp : output.startsWith temp = false) {place : Path}
    (below : temp.parts <+: place.parts) : ¬ output.parts <+: place.parts := by
  intro belowOutput
  rw [Bool.eq_false_iff, Ne, Path.starts_with_iff_parts] at outside outsideTemp
  rcases List.prefix_or_prefix_of_prefix below belowOutput with inner | inner
  · exact outsideTemp inner
  · exact outside inner

/-- A run that succeeds leaves the planned layout where nothing was, if its temp path is
elsewhere. -/
theorem run_lays_out {job : JobSpec} {tree after : Tree} {stats : RunStats}
    (planned : job.Planned) (distinct : job.nodeIds.Nodup) (notRoot : job.output.isRoot = false)
    (vacant : tree.Vacant job.output) (outside : job.temp.startsWith job.output = false)
    (outsideTemp : job.output.startsWith job.temp = false) (room : 0 < job.bufferSize)
    (done : perform (run files job) tree = (.ok stats, after)) :
    LaidOut job after ∧ after.failing = tree.failing := by
  obtain ⟨inputs, mapped, ran, _⟩ := run_ok room done
  obtain ⟨made, spilled, directories, spills, chunks⟩ := ran.stored
  have isMade := (Tree.create_directories_ok directories).1
  have apart {place : Path} (below : job.temp.parts <+: place.parts) :
      ¬ job.output.parts <+: place.parts := not_below_both outside outsideTemp below
  have spillBelow : job.temp.parts <+: (spillDirectory job).parts := by
    rw [spillDirectory, Path.parts_join _ _ plain_spill_directory]
    exact List.prefix_append _ _
  have madeVacant : made.Vacant job.output := by
    rw [isMade]
    exact Tree.vacant_ensure vacant (apart spillBelow)
  have spilledVacant : spilled.Vacant job.output := by
    refine Tree.vacant_store_all madeVacant ?_ spills
    intro file member
    obtain ⟨partition, _, rfl⟩ := List.mem_map.mp member
    apply apart
    rw [spillFile, spill_path_eq, Path.parts_join _ _ (plain_spill_name partition)]
    exact spillBelow.trans (List.prefix_append _ _)
  refine ⟨laid_out_store_all planned distinct notRoot spilledVacant chunks, ?_⟩
  rw [Tree.failing_store_all chunks, Tree.failing_store_all spills, isMade]
  rfl

end Local

end ChunkStore
