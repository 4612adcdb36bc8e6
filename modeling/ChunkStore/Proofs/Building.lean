import ChunkStore.Build
import ChunkStore.Proofs.ChunkAssignment
import ChunkStore.Proofs.LocalRun
import ChunkStore.Proofs.Manifests

/-!
A build on a tree, stage by stage. Where nothing is at the output path of a tree that is in order,
nothing is below it either, so all that is there after the build was made by the build.
-/

namespace ChunkStore

set_option autoImplicit false

open Stateful Memory

namespace Memory.Tree

/-- Every entry lies in a root or in a directory that is there. -/
def Rooted (tree : Tree) : Prop :=
  ∀ entry ∈ tree.entries, ∀ parent, entry.path.parent? = some parent →
    parent.isRoot = true ∨ tree.node? parent = some .directory

instance instDecidableRooted (tree : Tree) : Decidable tree.Rooted :=
  inferInstanceAs (Decidable (∀ entry ∈ tree.entries, ∀ parent ∈ entry.path.parent?,
    parent.isRoot = true ∨ tree.node? parent = some .directory))

def Vacant (tree : Tree) (path : Path) : Prop :=
  ∀ place : Path, place.startsWith path = true → tree.node? place = none

theorem vacant_of_absent {tree : Tree} (rooted : tree.Rooted) {path : Path}
    (absent : tree.isPresent path = false) : tree.Vacant path := by
  rw [isPresent, Bool.or_eq_false_iff] at absent
  obtain ⟨notRoot, missing⟩ := absent
  have none : tree.node? path = none := by simpa using missing
  have deep (count : Nat) (place : Path) (length : place.parts.length = path.parts.length + count)
      (starts : path.parts <+: place.parts) : tree.node? place = .none := by
    induction count generalizing place with
    | zero =>
        have same : place.same path = true :=
          (Path.same_iff_parts _ _).mpr (starts.eq_of_length (by omega)).symm
        rw [node_congr tree same, none]
    | succ count induction =>
        -- An entry here would have a directory above it, which is still at the path or below.
        by_contra there
        obtain ⟨node, found⟩ := Option.ne_none_iff_exists'.mp there
        rw [node?, Option.map_eq_some_iff] at found
        obtain ⟨entry, isFound, _⟩ := found
        obtain ⟨member, same⟩ := found_same isFound
        have parts := (Path.same_iff_parts _ _).mp same
        have entryStarts : path.parts <+: entry.path.parts := by rwa [parts]
        rcases Path.parent_cases entry.path with ⟨_, isRoot⟩ | ⟨parent, isParent, _, dropped⟩
        · rw [Path.is_root_of_beginning entryStarts isRoot] at notRoot
          exact absurd notRoot (by simp)
        · have shorter : parent.parts.length = path.parts.length + count := by
            rw [dropped, List.length_dropLast, parts, length]
            omega
          have stillStarts : path.parts <+: parent.parts := by
            rw [dropped, parts]
            apply Path.prefix_dropLast_of_ne starts
            intro equal
            rw [equal] at length
            omega
          rcases rooted entry member parent isParent with isRoot | directory
          · rw [Path.is_root_of_beginning stillStarts isRoot] at notRoot
            exact absurd notRoot (by simp)
          · rw [induction parent shorter stillStarts] at directory
            exact absurd directory (by simp)
  intro place starts
  have beginning := (Path.starts_with_iff_parts place path).mp starts
  have length := beginning.length_le
  exact deep (place.parts.length - path.parts.length) place (by omega) beginning

theorem contents_delete (tree : Tree) (path other : Path) :
    (tree.delete path).contents? other =
      if other.startsWith path then none else tree.contents? other := by
  rw [contents?, contents?, node_delete]
  split <;> rfl

theorem contents_ensure (tree : Tree) (path other : Path) :
    (tree.ensureDirectories path).contents? other = tree.contents? other := by
  rw [contents?, contents?, node_ensure]
  cases tree.node? other with
  | some node => rfl
  | none => split <;> rfl

end Memory.Tree

/-! The stages of a build -/

theorem Scan.keeps_size (inv : Tree → Prop) (path : Path) :
    Keeps inv (Scan.size files path) := by
  have loop (steps : Nat) (waiting : List Pending) (totals : ScanTotals) :
      Keeps inv (Scan.visit files steps waiting totals) := by
    induction steps generalizing waiting totals with
    | zero => exact keeps_pure _
    | succ steps induction =>
        cases waiting with
        | nil => exact keeps_pure _
        | cons work rest =>
            rw [Scan.visit]
            apply keeps_bind (keeps_outcome (keeps_list inv work.path))
            intro answer
            split
            · exact induction _ _
            · split
              · exact induction _ _
              · exact keeps_throw _
  have totals : Keeps inv (Scan.totals files path) :=
    keeps_bind (keeps_lift fun _ holds => holds) fun _ => loop _ _ _
  exact keeps_bind totals fun _ => keeps_pure _

namespace Builder

/-- The ways in which a build can end where nothing is at its output path. -/
inductive Built (builder : Builder) (submission : Submission) (tree : Tree) :
    Except BuildError BuildSummary × Tree → Prop
  | unscanned (error : IoError) :
      Built builder submission tree
        (.error (.failed (.sizeScan builder.config.input error)), tree.delete builder.config.temp)
  | stopped (inputBytes : Nat) (error : EngineError) (after : Tree)
      (ran : perform (Local.run files (builder.job submission (builder.plan inputBytes)))
        (tree.delete builder.config.temp) = (.error error, after)) :
      Built builder submission tree (.error (.failed (.engine submission.id error)), after)
  | unchecked (inputBytes : Nat) (stats : Local.RunStats) (middle after : Tree)
      (error : ChecksumError)
      (ran : perform (Local.run files (builder.job submission (builder.plan inputBytes)))
        (tree.delete builder.config.temp) = (.ok stats, middle))
      (checked : perform (checksums files builder.config) middle = (.error error, after)) :
      Built builder submission tree (.error (.failed (.checksum error)), after)
  | complete (inputBytes : Nat) (stats : Local.RunStats) (middle after : Tree)
      (nodes : List Checksum.NodeDigest)
      (ran : perform (Local.run files (builder.job submission (builder.plan inputBytes)))
        (tree.delete builder.config.temp) = (.ok stats, middle))
      (checked : perform (checksums files builder.config) middle = (.ok nodes, after)) :
      Built builder submission tree
        (.ok ⟨submission.id, inputBytes, builder.plan inputBytes, nodes⟩, after)

theorem perform_engine (job : JobSpec) (tree : Tree) :
    perform ((Local.engine files).run job) tree =
      match perform (Local.run files job) tree with
      | (.ok _, after) => (.ok (), after)
      | (.error error, after) => (.error error, after) := by
  rw [Local.engine, perform_bind]
  cases perform (Local.run files job) tree with
  | mk result after => cases result <;> rfl

theorem absent_of_ok {builder : Builder} {submission : Submission} {tree after : Tree}
    {summary : BuildSummary}
    (done : perform (build files (Local.engine files) builder submission) tree =
      (.ok summary, after)) : tree.isPresent builder.config.output = false := by
  rw [Bool.eq_false_iff]
  intro present
  unfold build at done
  obtain ⟨_, _, checked, _⟩ := bind_ok done
  obtain ⟨found, _, asked, refused⟩ := bind_ok checked
  have answer := adapt_ok asked
  rw [perform_exists, present, Prod.mk.injEq, Except.ok.injEq] at answer
  rw [← answer.1, if_pos rfl, perform_throw] at refused
  exact absurd (congrArg Prod.fst refused) (by simp)

/-- A build where nothing is at the output path, as one function. -/
theorem perform_build (builder : Builder) (submission : Submission) {tree : Tree}
    (absent : tree.isPresent builder.config.output = false) :
    perform (build files (Local.engine files) builder submission) tree =
      let cleared := tree.delete builder.config.temp
      match (perform (Scan.size files builder.config.input) cleared).1 with
      | .error error => (.error (.failed (.sizeScan builder.config.input error)), cleared)
      | .ok inputBytes =>
          let job := builder.job submission (builder.plan inputBytes)
          match perform (Local.run files job) cleared with
          | (.error error, after) => (.error (.failed (.engine submission.id error)), after)
          | (.ok _, middle) =>
              match perform (checksums files builder.config) middle with
              | (.error error, after) => (.error (.failed (.checksum error)), after)
              | (.ok nodes, after) =>
                  (.ok ⟨submission.id, inputBytes, builder.plan inputBytes, nodes⟩, after) := by
  have checkedAbsent : perform (requireAbsent files builder.config.output) tree =
      (.ok (), tree) := by
    rw [requireAbsent, perform_bind, perform_adapt, perform_exists, absent]
    rfl
  have cleared : perform (ExceptT.adapt (fun error => BuildError.failed
      (.clearTemp builder.config.temp error)) (files.deleteTree builder.config.temp)) tree =
        (.ok ((tree.delete builder.config.temp).size != tree.size),
          tree.delete builder.config.temp) := by
    rw [perform_adapt, perform_delete]
    rfl
  unfold build
  simp only
  rw [perform_bind_ok checkedAbsent, perform_bind_ok cleared, perform_bind, perform_adapt,
    tree_of_keeps (fun inv => Scan.keeps_size inv builder.config.input)]
  cases (perform (Scan.size files builder.config.input)
      (tree.delete builder.config.temp)).1 with
  | error error => rfl
  | ok inputBytes =>
      simp only [map_error_ok]
      rw [perform_bind, perform_adapt, perform_engine]
      cases perform (Local.run files (builder.job submission (builder.plan inputBytes)))
          (tree.delete builder.config.temp) with
      | mk result middle =>
          cases result with
          | error error => rfl
          | ok stats =>
              simp only [map_error_ok]
              rw [perform_bind, perform_adapt]
              cases perform (checksums files builder.config) middle with
              | mk outcome after => cases outcome <;> rfl

theorem build_of_stages {builder : Builder} {submission : Submission} {tree middle after : Tree}
    {inputBytes : Nat} {stats : Local.RunStats} {nodes : List Checksum.NodeDigest}
    (absent : tree.isPresent builder.config.output = false)
    (sized : (perform (Scan.size files builder.config.input)
      (tree.delete builder.config.temp)).1 = .ok inputBytes)
    (ran : perform (Local.run files (builder.job submission (builder.plan inputBytes)))
      (tree.delete builder.config.temp) = (.ok stats, middle))
    (checked : perform (checksums files builder.config) middle = (.ok nodes, after)) :
    perform (build files (Local.engine files) builder submission) tree =
      (.ok ⟨submission.id, inputBytes, builder.plan inputBytes, nodes⟩, after) := by
  rw [perform_build builder submission absent]
  simp only [sized, ran, checked]

theorem build_cases (builder : Builder) (submission : Submission) {tree : Tree}
    (absent : tree.isPresent builder.config.output = false) :
    Built builder submission tree
      (perform (build files (Local.engine files) builder submission) tree) := by
  rw [perform_build builder submission absent]
  dsimp only
  cases (perform (Scan.size files builder.config.input)
      (tree.delete builder.config.temp)).1 with
  | error error => exact .unscanned error
  | ok inputBytes =>
      simp only
      cases ran : perform (Local.run files (builder.job submission (builder.plan inputBytes)))
          (tree.delete builder.config.temp) with
      | mk result middle =>
          cases result with
          | error error => exact .stopped inputBytes error middle ran
          | ok stats =>
              simp only
              cases checked : perform (checksums files builder.config) middle with
              | mk outcome after =>
                  cases outcome with
                  | error error => exact .unchecked inputBytes stats middle after error ran checked
                  | ok nodes => exact .complete inputBytes stats middle after nodes ran checked

/-! A build for runs on fixed inputs -/

def sampleSettings : BuildSettings where
  input := .ofText "/in"
  temp := .ofText "/tmp"
  output := .ofText "/out"
  chunkSize := 2
  checksumEnabled := true

theorem sample_settings_valid : sampleSettings.Valid :=
  ⟨by decide, by decide, by decide, by decide, by decide⟩

def sampleBuilder : Builder where
  cluster := ⟨"single", [⟨3, ""⟩], by decide⟩
  store := JobSpec.twoNodes.store
  config := ⟨sampleSettings, sample_settings_valid⟩

end Builder

end ChunkStore
