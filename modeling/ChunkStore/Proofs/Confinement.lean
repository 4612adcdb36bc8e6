import ChunkStore.Proofs.Building

/-!
Where a build changes anything. Every call of a build that changes the tree works below the temp
or the output path, so of what lies outside of both everything stays as it is, in the same order,
and all that comes to it are the directories in which the two paths lie.
-/

namespace ChunkStore

set_option autoImplicit false

open Stateful Memory

namespace Memory.Tree

def isWithin (rooms : List Path) (path : Path) : Bool := rooms.any path.startsWith

def outside (tree : Tree) (rooms : List Path) : List Entry :=
  tree.entries.filter fun entry => !isWithin rooms entry.path

/-- Outside of some rooms everything is still there with what it held and in its order, and only
directories that lead to a room were added. -/
structure Confined (rooms : List Path) (before after : Tree) : Prop where
  kept : ∃ made : List Path,
    after.outside rooms = before.outside rooms ++ made.map (⟨·, .directory⟩) ∧
      ∀ place ∈ made, ∃ room ∈ rooms, room.startsWith place = true
  failing : after.failing = before.failing

theorem within_iff (rooms : List Path) (path : Path) :
    isWithin rooms path = true ↔ ∃ room ∈ rooms, room.parts <+: path.parts := by
  simp [isWithin, Path.starts_with_iff_parts]

theorem within_congr {rooms : List Path} {path other : Path} (same : path.same other = true) :
    isWithin rooms path = isWithin rooms other := by
  rw [Bool.eq_iff_iff, within_iff, within_iff, (Path.same_iff_parts _ _).mp same]

namespace Confined

variable {rooms : List Path} {tree before middle after : Tree} {path : Path} {contents : Bytes}

theorem refl (rooms : List Path) (tree : Tree) : Confined rooms tree tree where
  kept := ⟨[], by simp, by simp⟩
  failing := rfl

theorem trans (first : Confined rooms before middle) (second : Confined rooms middle after) :
    Confined rooms before after where
  kept := by
    obtain ⟨made, same, lead⟩ := first.kept
    obtain ⟨others, otherSame, otherLead⟩ := second.kept
    refine ⟨made ++ others, ?_, ?_⟩
    · rw [otherSame, same, List.map_append, List.append_assoc]
    · intro place member
      rcases List.mem_append.mp member with inFirst | inSecond
      · exact lead place inFirst
      · exact otherLead place inSecond
  failing := second.failing.trans first.failing

theorem of_outside (same : after.outside rooms = before.outside rooms)
    (failing : after.failing = before.failing) : Confined rooms before after where
  kept := ⟨[], by simpa using same, by simp⟩
  failing := failing

theorem delete (room : path ∈ rooms) : Confined rooms tree (tree.delete path) := by
  refine of_outside ?_ rfl
  rw [outside, outside, Tree.delete, List.filter_filter]
  apply List.filter_congr
  intro entry _
  by_cases gone : entry.path.startsWith path = true
  · have within : isWithin rooms entry.path = true := List.any_eq_true.mpr ⟨path, room, gone⟩
    simp [within]
  · simp [gone]

theorem putFile (within : isWithin rooms path = true) :
    Confined rooms tree (tree.putFile path contents) := by
  refine of_outside ?_ (failing_put tree path contents)
  apply filter_put tree path contents fun other => !isWithin rooms other
  intro other same
  rw [within_congr same, within]
  rfl

/-- The directories that are made on the way to something in a room lie in the room or lead to
it. -/
theorem ensure {below : Path} (within : isWithin rooms below = true)
    (above : path.parts <+: below.parts) : Confined rooms tree (tree.ensureDirectories path) where
  kept := by
    obtain ⟨room, member, inside⟩ := (within_iff _ _).mp within
    refine ⟨(tree.missing path).filter fun place => !isWithin rooms place, ?_, ?_⟩
    · rw [outside, outside, entries_ensure, List.filter_append, List.filter_map]
      rfl
    · intro place kept
      obtain ⟨isMissing, elsewhere⟩ := List.mem_filter.mp kept
      have beginning := Path.ancestor_is_beginning path place (mem_missing.mp isMissing).1
      refine ⟨room, member, (Path.starts_with_iff_parts _ _).mpr ?_⟩
      rcases List.prefix_or_prefix_of_prefix (beginning.trans above) inside with leads | deeper
      · exact leads
      · rw [(within_iff _ _).mpr ⟨room, member, deeper⟩] at elsewhere
        exact absurd elsewhere (by simp)
  failing := rfl

theorem createDirectories (within : isWithin rooms path = true)
    (made : tree.createDirectories path = .ok after) : Confined rooms tree after := by
  rw [(create_directories_ok made).1]
  exact ensure within List.prefix_rfl

theorem parents (within : isWithin rooms path = true) :
    Confined rooms tree (tree.withParents path) := by
  unfold withParents
  rcases Path.parent_cases path with ⟨none, _⟩ | ⟨parent, found, _, dropped⟩
  · rw [none]
    exact refl rooms tree
  · rw [found]
    exact ensure within (dropped ▸ List.dropLast_prefix _)

theorem store (within : isWithin rooms path = true)
    (stored : tree.store path contents = .ok after) : Confined rooms tree after := by
  obtain ⟨made, created, rfl⟩ := store_ok stored
  rw [(create_ok created).1]
  exact (parents within).trans ((putFile within).trans (putFile within))

theorem storeAll {stored : List (Path × Bytes)}
    (within : ∀ file ∈ stored, isWithin rooms file.1 = true)
    (done : tree.storeAll stored = .ok after) : Confined rooms tree after := by
  refine store_all_keeps (Confined rooms tree) ?_ (refl rooms tree) done
  intro file member between next confined first
  exact confined.trans (store (within file member) first)

end Confined

end Memory.Tree

open Memory.Tree

/-! The stages -/

theorem spill_path_within (job : JobSpec) (partition : UInt32) :
    job.temp.parts <+: (Local.spillPath (Local.spillDirectory job) partition).parts := by
  rw [spill_path_eq, Path.parts_join _ _ (plain_spill_name partition), Local.spillDirectory,
    Path.parts_join _ _ plain_spill_directory, List.append_assoc]
  exact List.prefix_append _ _

theorem chunk_path_within (chunk : ChunkId) (output : Path) (file : ChunkFile) :
    output.parts <+: (chunk.filePath output file).parts := by
  rw [parts_file_path, parts_node_directory, List.append_assoc]
  exact List.prefix_append _ _

theorem manifest_within {directory output : Path} (child : directory.isChildOf output = true) :
    output.parts <+: (Checksum.manifestPath directory).parts := by
  obtain ⟨part, _, parts⟩ := (Path.is_child_iff _ _).mp child
  rw [Checksum.manifestPath, Path.parts_join _ _ plain_manifest, parts, List.append_assoc]
  exact List.prefix_append _ _

/-- However a run ends, it has changed the tree below its temp and its output path only. -/
theorem Local.run_confined (job : JobSpec) (tree : Tree) :
    Confined [job.temp, job.output] tree (perform (run files job) tree).2 := by
  rcases run_exits job tree with unchanged | ⟨made, stored, directories, done, places⟩
  · rw [unchanged]
    exact .refl _ _
  · have spills : isWithin [job.temp, job.output] (spillDirectory job) = true := by
      refine (within_iff _ _).mpr ⟨job.temp, by simp, ?_⟩
      rw [spillDirectory, Path.parts_join _ _ plain_spill_directory]
      exact List.prefix_append _ _
    refine (Confined.createDirectories spills directories).trans (.storeAll ?_ done)
    intro file member
    rw [within_iff]
    rcases places file member with ⟨partition, isSpill⟩ | ⟨partition, chunk, kind, _, isChunk⟩
    · exact ⟨job.temp, by simp, isSpill ▸ spill_path_within job partition⟩
    · exact ⟨job.output, by simp, isChunk ▸ chunk_path_within chunk job.output kind⟩

namespace Checksum

theorem aggregate_each_confined (options : ChecksumOptions) {rooms : List Path} {output : Path}
    (room : output ∈ rooms) (directories : List Path)
    (children : ∀ directory ∈ directories, directory.isChildOf output = true) (tree : Tree) :
    Confined rooms tree (perform (directories.mapM (aggregate files options)) tree).2 := by
  -- a failure may come after some manifests were written, so the tree changes along the list
  induction directories generalizing tree with
  | nil => exact .refl _ _
  | cons directory rest induction =>
      rw [List.mapM_cons, perform_bind]
      rcases aggregate_cases options directory tree with
        ⟨error, failed⟩ | ⟨node, after, _, stored, done⟩
      · rw [failed]
        exact .refl _ _
      · have within : isWithin rooms (manifestPath directory) = true :=
          (within_iff _ _).mpr ⟨output, room, manifest_within (children _ List.mem_cons_self)⟩
        have others := induction
          (fun other member => children other (List.mem_cons_of_mem _ member)) after
        rw [done]
        simp only
        rw [perform_bind]
        refine (Confined.store within stored).trans ?_
        cases result : perform (rest.mapM (aggregate files options)) after with
        | mk outcome final =>
            rw [result] at others
            cases outcome <;> exact others

theorem aggregate_all_confined (options : ChecksumOptions) {rooms : List Path} {output : Path}
    (room : output ∈ rooms) (tree : Tree) :
    Confined rooms tree (perform (aggregateAll files options output) tree).2 := by
  rw [aggregateAll, perform_bind, perform_node_directories, nodeDirectoriesOf]
  cases listed : tree.list output with
  | error error => exact .refl _ _
  | ok statuses =>
      apply aggregate_each_confined options room
      exact fun directory member => (Tree.directory_of_listed listed member).1

end Checksum

namespace Builder

theorem checksums_confined (config : BuildConfig) {rooms : List Path}
    (room : config.output ∈ rooms) (tree : Tree) :
    Confined rooms tree (perform (checksums files config) tree).2 := by
  unfold checksums
  split
  · exact Checksum.aggregate_all_confined config.checksum room tree
  · exact .refl _ _

theorem build_of_present (builder : Builder) (submission : Submission) {tree : Tree}
    (present : tree.isPresent builder.config.output = true) :
    perform (build files (Local.engine files) builder submission) tree =
      (.error (.precondition builder.config.output "output directory already exists"), tree) := by
  have refused : perform (requireAbsent files builder.config.output) tree =
      (.error (.precondition builder.config.output "output directory already exists"), tree) := by
    rw [requireAbsent, perform_bind, perform_adapt, perform_exists, present]
    rfl
  unfold build
  exact perform_bind_error refused _

/-- Whatever a build comes to, it leaves everything outside of its temp and its output path as it
was and in the same order, and adds nothing there but directories in which the two paths lie. -/
theorem build_confined (builder : Builder) (submission : Submission) (tree : Tree) :
    Confined [builder.config.temp, builder.config.output] tree
      ((build files (Local.engine files) builder submission).run.run tree).2 := by
  rw [← perform_eq_run]
  by_cases present : tree.isPresent builder.config.output = true
  · rw [build_of_present builder submission present]
    exact .refl _ _
  have cleared : Confined [builder.config.temp, builder.config.output] tree
      (tree.delete builder.config.temp) := .delete (by simp)
  have running (inputBytes : Nat) := Local.run_confined
    (builder.job submission (builder.plan inputBytes)) (tree.delete builder.config.temp)
  have checking (middle : Tree) := checksums_confined builder.config
    (show builder.config.output ∈ [builder.config.temp, builder.config.output] by simp) middle
  have built := build_cases builder submission (Bool.eq_false_iff.mpr present)
  generalize perform (build files (Local.engine files) builder submission) tree = outcome at built
  cases built with
  | unscanned error => exact cleared
  | stopped inputBytes error after ran =>
      have confined := running inputBytes
      rw [ran] at confined
      exact cleared.trans confined
  | unchecked inputBytes stats middle after error ran checked =>
      have confined := running inputBytes
      have checks := checking middle
      rw [ran] at confined
      rw [checked] at checks
      exact cleared.trans (confined.trans checks)
  | complete inputBytes stats middle after nodes ran checked =>
      have confined := running inputBytes
      have checks := checking middle
      rw [ran] at confined
      rw [checked] at checks
      exact cleared.trans (confined.trans checks)

end Builder

end ChunkStore
