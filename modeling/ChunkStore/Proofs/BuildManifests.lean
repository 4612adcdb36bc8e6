import ChunkStore.Job.PlainStrategies
import ChunkStore.Proofs.Building

/-!
A build leaves no wrong manifest. The engine writes no file with a manifest's name, and the
checksum stage writes into a manifest only the digest of its directory, so wherever a build stops,
the manifests below its output are right or not there.
-/

namespace ChunkStore.Builder

set_option autoImplicit false

open Stateful Memory Checksum

theorem unsigned_of_vacant {output : Path} {tree : Tree} (vacant : tree.Vacant output) :
    Unsigned output tree := by
  intro directory child
  obtain ⟨part, _, parts⟩ := (Path.is_child_iff directory output).mp child
  have below : (manifestPath directory).startsWith output = true := by
    rw [Path.starts_with_iff_parts, manifestPath, Path.parts_join directory _ plain_manifest,
      parts, List.append_assoc]
    exact List.prefix_append _ _
  rw [Tree.contents?, vacant _ below]
  rfl

theorem unsigned_delete {output : Path} {tree : Tree} (unsigned : Unsigned output tree)
    (path : Path) : Unsigned output (tree.delete path) := by
  intro directory child
  rw [Tree.contents_delete, unsigned directory child]
  split <;> rfl

theorem engine_path_ne_manifest {job : JobSpec} {path : Path}
    (isEngine : Local.IsSpillPath job path ∨ Local.IsChunkPath job path) (directory : Path) :
    (manifestPath directory).same path = false := by
  apply Path.not_same_of_name
  rw [name_manifest_path]
  rcases isEngine with ⟨partition, place⟩ | ⟨partition, chunk, file, _, place⟩
  · rw [place, name_spill_path]
    exact (spill_name_ne_manifest partition).symm
  · rw [place, name_file_path]
    exact (file_name_ne_manifest chunk file).symm

theorem unsigned_run {output : Path} {tree : Tree} (unsigned : Unsigned output tree)
    (job : JobSpec) : Unsigned output (perform (Local.run files job) tree).2 := by
  rcases Local.run_exits job tree with same | ⟨made, stored, directories, finished, areEngine⟩
  · rw [same]
    exact unsigned
  · refine Tree.store_all_keeps (Unsigned output) ?_ ?_ finished
    · intro file member before after holds stores directory child
      have apart := engine_path_ne_manifest (areEngine file member) directory
      rw [Tree.contents_store stores, if_neg (by simp [apart]), holds directory child]
    · intro directory child
      rw [(Tree.create_directories_ok directories).1, Tree.contents_ensure,
        unsigned directory child]

theorem honest_checksums {config : BuildConfig} {tree : Tree}
    (unsigned : Unsigned config.output tree) :
    Honest config.checksum.order config.output (perform (checksums files config) tree).2 := by
  have honest := honest_of_unsigned unsigned config.checksum.order
  unfold checksums
  split
  · exact honest_aggregate_all honest
  · exact honest

/-- However a build ends whose output path was absent, a check of a directory directly under the
output that succeeds finds its manifest right or missing; and it finds it missing if the build
failed before the checksum stage. -/
theorem build_leaves_no_wrong_manifest (builder : Builder) (submission : Submission)
    (tree after : Tree) (result : Except BuildError BuildSummary) (rooted : tree.Rooted)
    (absent : tree.isPresent builder.config.output = false)
    (done : (build files (Local.engine files) builder submission).run.run tree = (result, after))
    (directory : Path) (child : directory.isChildOf builder.config.output = true)
    (isDirectory : after.node? directory = some .directory) (found : Verification)
    (verified : ((verify files builder.config.checksum directory).run.run after).1 = .ok found) :
    (∃ digest, found = .matching digest ∨ found = .missing digest) ∧
      ((∃ error, result = .error (.failed error) ∧ ∀ cause, error ≠ .checksum cause) →
        found.isMatch = false) := by
  have cleared : Unsigned builder.config.output (tree.delete builder.config.temp) :=
    unsigned_delete (unsigned_of_vacant (Tree.vacant_of_absent rooted absent)) _
  have outcome := build_cases builder submission absent
  have checked : verification builder.config.checksum.order after directory = .ok found := by
    have performed := perform_verify builder.config.checksum directory after
    rw [perform_eq_run] at performed
    rwa [performed] at verified
  rw [perform_eq_run, done] at outcome
  have early (unsigned : Unsigned builder.config.output after) :
      (∃ digest, found = .matching digest ∨ found = .missing digest) ∧
        ((∃ error, result = .error (.failed error) ∧ ∀ cause, error ≠ .checksum cause) →
          found.isMatch = false) := by
    obtain ⟨digest, isMissing⟩ := verification_of_unsigned unsigned child checked
    refine ⟨⟨digest, Or.inr isMissing⟩, fun _ => ?_⟩
    rw [isMissing]
    rfl
  cases outcome with
  | unscanned error => exact early cleared
  | stopped inputBytes error after ran =>
      have unsigned := unsigned_run cleared (builder.job submission (builder.plan inputBytes))
      rw [ran] at unsigned
      exact early unsigned
  | unchecked inputBytes stats middle after error ran checking =>
      have unsigned := unsigned_run cleared (builder.job submission (builder.plan inputBytes))
      rw [ran] at unsigned
      have honest := honest_checksums unsigned
      rw [checking] at honest
      refine ⟨verification_of_honest honest child isDirectory checked, ?_⟩
      rintro ⟨stage, same, other⟩
      rw [Except.error.injEq, BuildError.failed.injEq] at same
      exact absurd same.symm (other error)
  | complete inputBytes stats middle after nodes ran checking =>
      have unsigned := unsigned_run cleared (builder.job submission (builder.plan inputBytes))
      rw [ran] at unsigned
      have honest := honest_checksums unsigned
      rw [checking] at honest
      refine ⟨verification_of_honest honest child isDirectory checked, ?_⟩
      rintro ⟨stage, same, _⟩
      cases same

/-- A build whose writer refuses the only record, which belongs to the second of two chunks. -/
def refusedBuilder : Builder :=
  { sampleBuilder with
    transform := .plainLines
    partitioner := .constant 1
    writer := .plainLines }

def refusedTree : Tree := Tree.empty.addFile (.ofText "/in/a") ChunkWriter.refusedKey

def refusedBuild : Except BuildError BuildSummary × Tree :=
  (build files (Local.engine files) refusedBuilder ⟨"job", "now"⟩).run.run refusedTree

theorem refused_build_verified :
    ∃ found, ((verify files refusedBuilder.config.checksum (.ofText "/out/node-3")).run.run
      refusedBuild.2).1 = .ok found := by
  have checked : (verification .listing refusedBuild.2 (.ofText "/out/node-3")).isOk = true := by
    rw [verification, node_digest_listing]
    decide +kernel
  have performed := perform_verify refusedBuilder.config.checksum (.ofText "/out/node-3")
    refusedBuild.2
  rw [perform_eq_run] at performed
  rw [performed]
  exact exists_ok checked

/-- The chunks that the refused build leaves behind can be checked, and they do not match. -/
theorem refused_build_leaves_no_match :
    ∃ found, ((verify files refusedBuilder.config.checksum (.ofText "/out/node-3")).run.run
      refusedBuild.2).1 = .ok found ∧ found.isMatch = false := by
  obtain ⟨found, verified⟩ := refused_build_verified
  have refused : refusedBuild.1 = .error (.failed (.engine "job" (.io ChunkWriter.refused))) := by
    decide +kernel
  have whole := build_leaves_no_wrong_manifest refusedBuilder ⟨"job", "now"⟩ refusedTree
    refusedBuild.2 refusedBuild.1 (by decide) (by decide) (Prod.eta refusedBuild).symm
    (.ofText "/out/node-3") (by decide) (by decide +kernel) found verified
  exact ⟨found, verified, whole.2 ⟨_, refused, fun cause => by simp⟩⟩

end ChunkStore.Builder
