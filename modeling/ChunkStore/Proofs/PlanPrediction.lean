import ChunkStore.Program
import ChunkStore.Proofs.Building
import ChunkStore.Proofs.Digests
import ChunkStore.Proofs.SizeScan

/-!
A plan predicts the build that follows. Both read a chunk size in the same way and size the same
input. A build clears its temp path before it sizes its input, but what lies apart from the input
plays no part in a scan, and only the replication of the store goes into a plan.
-/

namespace ChunkStore

set_option autoImplicit false

open Stateful Memory

/-! Clearing what lies apart -/

namespace Memory.Tree

variable {tree : Tree} {cleared path : Path}

theorem child_apart {child : Path} (outside : path.startsWith cleared = false)
    (above : cleared.startsWith path = false) (isChild : child.isChildOf path = true) :
    child.startsWith cleared = false := by
  rw [Bool.eq_false_iff, Ne, Path.starts_with_iff_parts] at outside above ⊢
  rcases (Path.is_child_iff child path).mp isChild with ⟨part, _, parts⟩
  rw [parts]
  intro begins
  rcases List.prefix_concat_iff.mp begins with same | shorter
  · exact above (same ▸ List.prefix_append path.parts [part])
  · exact outside shorter

theorem children_delete (outside : path.startsWith cleared = false)
    (above : cleared.startsWith path = false) :
    (tree.delete cleared).children path = tree.children path := by
  rw [children, children, delete, List.filter_filter]
  congr 1
  apply List.filter_congr
  intro entry _
  by_cases isChild : entry.path.isChildOf path = true
  · rw [isChild, child_apart outside above isChild]
    rfl
  · simp [isChild]

theorem list_delete (outside : path.startsWith cleared = false)
    (above : cleared.startsWith path = false) :
    (tree.delete cleared).list path = tree.list path := by
  have node : (tree.delete cleared).node? path = tree.node? path := by
    rw [node_delete, outside]
    rfl
  rw [list, list, node, children_delete outside above]

theorem list_delete_below {base : Path} (outside : base.startsWith cleared = false)
    (above : cleared.startsWith base = false) (below : path.startsWith base = true) :
    (tree.delete cleared).list path = tree.list path := by
  rw [Bool.eq_false_iff, Ne, Path.starts_with_iff_parts] at outside above
  rw [Path.starts_with_iff_parts] at below
  apply list_delete
  · rw [Bool.eq_false_iff, Ne, Path.starts_with_iff_parts]
    intro begins
    rcases List.prefix_or_prefix_of_prefix begins below with shorter | longer
    · exact outside shorter
    · exact above longer
  · rw [Bool.eq_false_iff, Ne, Path.starts_with_iff_parts]
    intro begins
    exact above (below.trans begins)

end Memory.Tree

/-! Scans that agree -/

namespace Scan

theorem onward_below {tree : Tree} {work : Pending} {statuses : List Status}
    (listed : tree.list work.path = .ok statuses) {next : Pending}
    (member : next ∈ onward work statuses) : next.path.startsWith work.path = true := by
  rcases List.mem_map.mp (List.mem_reverse.mp member) with ⟨status, inside, rfl⟩
  rcases List.mem_filter.mp inside with ⟨isListed, directory⟩
  rw [← Tree.listing_of_ok listed] at isListed
  rcases Tree.entry_of_listed isListed directory with ⟨entry, _, _, same, child⟩
  rcases (Path.is_child_iff entry.path work.path).mp child with ⟨part, _, parts⟩
  rw [Path.starts_with_iff_parts, ← same, parts]
  exact List.prefix_append _ _

/-- Trees that list the same at and below a path give the same scan of what waits there. -/
theorem visit_agrees {tree other : Tree} {base : Path}
    (alike : ∀ path, path.startsWith base = true → other.list path = tree.list path)
    (steps : Nat) (waiting : List Pending) (totals : ScanTotals)
    (below : ∀ work ∈ waiting, work.path.startsWith base = true) :
    (perform (visit files steps waiting totals) other).1 =
      (perform (visit files steps waiting totals) tree).1 := by
  induction steps generalizing waiting totals with
  | zero => rfl
  | succ steps induction =>
      cases waiting with
      | nil => rfl
      | cons work rest =>
          rw [List.forall_mem_cons] at below
          rw [visit, perform_bind, perform_bind, perform_outcome, perform_outcome, perform_list,
            perform_list, alike work.path below.1]
          cases listed : tree.list work.path with
          | error error =>
              simp only
              split
              · exact induction rest totals below.2
              · rfl
          | ok statuses =>
              apply induction
              intro next member
              rcases List.mem_append.mp member with fresh | later
              · have deeper := onward_below listed fresh
                rw [Path.starts_with_iff_parts] at deeper ⊢
                exact ((Path.starts_with_iff_parts _ _).mp below.1).trans deeper
              · exact below.2 next later

theorem perform_size (path : Path) (tree : Tree) :
    (perform (size files path) tree).1 =
      (perform (totals files path) tree).1.map ScanTotals.bytes := by
  rw [size, perform_bind]
  cases perform (totals files path) tree with
  | mk result after => cases result <;> rfl

/-- Clearing what lies apart from a path leaves the size there as it is. -/
theorem size_delete {tree : Tree} (distinct : tree.Distinct) {path cleared : Path}
    (outside : path.startsWith cleared = false) (above : cleared.startsWith path = false) :
    (perform (size files path) (tree.delete cleared)).1 = (perform (size files path) tree).1 := by
  -- The bound on the steps goes by the larger tree; steps beyond the need change nothing.
  have visited {other : Tree} (isDistinct : other.Distinct) (smaller : other.size ≤ tree.size) :
      perform (totals files path) other =
        perform (visit files (tree.size + 1) [⟨path, 0⟩] .zero) other :=
    perform_totals (fun _ => none) isDistinct path (Nat.lt_succ_of_le smaller)
  have itself : path.startsWith path = true :=
    (Path.starts_with_iff_parts path path).mpr List.prefix_rfl
  have alike (below : Path) (inside : below.startsWith path = true) :
      (tree.delete cleared).list below = tree.list below :=
    Tree.list_delete_below outside above inside
  have agrees := visit_agrees alike (tree.size + 1) [⟨path, 0⟩] .zero (by simpa using itself)
  rw [perform_size, perform_size, visited distinct (Nat.le_refl _),
    visited (Tree.distinct_delete distinct cleared) (List.length_filter_le _ _), agrees]

end Scan

/-! Chunk sizes -/

theorem ChecksumArguments.buffer_of_ok {arguments : ChecksumArguments} {options : ChecksumOptions}
    (accepted : arguments.options = .ok options) :
    1 ≤ options.bufferSize ∧ options.bufferSize ≤ maxBufferSize := by
  rw [ChecksumArguments.options] at accepted
  cases parsed : parseSize arguments.bufferSize with
  | error error =>
      rw [parsed] at accepted
      cases accepted
  | ok size =>
      simp only [parsed, bind, Except.bind, validateBufferSize] at accepted
      by_cases bounds : 1 ≤ size ∧ size ≤ maxBufferSize
      · rw [if_pos bounds] at accepted
        rw [← Except.ok.inj accepted]
        exact bounds
      · rw [if_neg bounds] at accepted
        cases accepted

/-- With checksum settings and a replication that are accepted, a chunk size counts for a build as
it does for a plan, and so does what is wrong with it. -/
theorem BuildArguments.chunk_size_eq {arguments : BuildArguments}
    (checked : arguments.checksumArguments.options.isOk = true)
    (held : arguments.replication ≠ 0) :
    arguments.config.map (·.chunkSize) = Program.chunkSize arguments.chunkSize := by
  rcases exists_ok checked with ⟨options, accepted⟩
  have buffer := ChecksumArguments.buffer_of_ok accepted
  rw [BuildArguments.config, accepted, Program.chunkSize]
  cases parseSize arguments.chunkSize with
  | error error => rfl
  | ok size =>
      simp only [bind, Except.bind, BuildSettings.check, validateChunkSize]
      by_cases bounds : minChunkSize ≤ size ∧ size ≤ maxChunkSize
      · rw [dif_pos bounds, dif_pos held, dif_pos buffer, if_pos bounds]
        rfl
      · rw [dif_neg bounds, if_neg bounds]
        rfl

theorem BuildSettings.check_ok {settings : BuildSettings} {config : BuildConfig}
    (accepted : settings.check = .ok config) : config.toBuildSettings = settings := by
  rw [BuildSettings.check] at accepted
  split at accepted
  · split at accepted
    · split at accepted
      · rw [← Except.ok.inj accepted]
      · cases accepted
    · cases accepted
  · cases accepted

theorem BuildArguments.config_ok {arguments : BuildArguments} {config : BuildConfig}
    (accepted : arguments.config = .ok config) :
    arguments.checksumArguments.options.isOk = true ∧ arguments.replication ≠ 0 ∧
      config.input = arguments.input ∧ config.temp = arguments.temp := by
  rw [BuildArguments.config] at accepted
  cases options : arguments.checksumArguments.options with
  | error error =>
      rw [options] at accepted
      cases accepted
  | ok checked =>
      cases parsed : parseSize arguments.chunkSize with
      | error error =>
          rw [options, parsed] at accepted
          cases accepted
      | ok size =>
          rw [options, parsed] at accepted
          have same := BuildSettings.check_ok accepted
          have held := config.valid.replication_ne_zero
          rw [same] at held
          exact ⟨rfl, held, by rw [same], by rw [same]⟩

/-! Builds -/

namespace Builder

theorem keeps_require_absent (inv : Tree → Prop) (output : Path) :
    Keeps inv (requireAbsent files output) := by
  have asks : Keeps inv (files.exists? output) := fun _ holds => holds
  apply keeps_bind (keeps_adapt _ asks)
  intro present
  split
  · exact keeps_throw _
  · exact keeps_pure _

/-- A build that succeeds has sized its input after clearing its temp path, and planned for that. -/
theorem build_sized {engine : JobEngine (StateM Tree)} {builder : Builder}
    {submission : Submission} {tree after : Tree} {summary : BuildSummary}
    (done : perform (builder.build files engine submission) tree = (.ok summary, after)) :
    (perform (Scan.size files builder.config.input) (tree.delete builder.config.temp)).1 =
        .ok summary.inputBytes ∧
      summary.plan = builder.plan summary.inputBytes := by
  have absent := tree_of_keeps (fun inv => keeps_require_absent inv builder.config.output) tree
  unfold build at done
  rcases bind_ok done with ⟨_, checked, required, clearing⟩
  rw [required, Prod.mk.injEq] at absent
  rw [absent.2] at clearing
  rcases bind_ok clearing with ⟨_, cleared, deleted, sizing⟩
  have deletedTree : tree.delete builder.config.temp = cleared :=
    congrArg Prod.snd ((perform_delete _ _).symm.trans (adapt_ok deleted))
  rcases bind_ok sizing with ⟨inputBytes, sized, scanned, running⟩
  rcases bind_ok running with ⟨_, ran, _, checking⟩
  rcases bind_ok checking with ⟨nodes, final, _, finished⟩
  rw [perform_pure, Prod.mk.injEq, Except.ok.injEq] at finished
  rw [← finished.1]
  refine ⟨?_, rfl⟩
  rw [deletedTree]
  exact congrArg Prod.fst (adapt_ok scanned)

/-- The plan of a build is that of its input as it was before, for the replication of its store. -/
theorem build_planned {engine : JobEngine (StateM Tree)} {builder : Builder}
    {submission : Submission} {tree after : Tree} {summary : BuildSummary}
    (distinct : tree.Distinct)
    (outside : builder.config.input.startsWith builder.config.temp = false)
    (above : builder.config.temp.startsWith builder.config.input = false)
    (done : perform (builder.build files engine submission) tree = (.ok summary, after)) :
    perform (Scan.size files builder.config.input) tree = (.ok summary.inputBytes, tree) ∧
      summary.plan = ChunkPlan.compute (UInt64.ofNat summary.inputBytes)
        builder.store.replication builder.cluster.size
        (UInt64.ofNat builder.config.chunkSize) := by
  rcases build_sized done with ⟨sized, planned⟩
  rw [Scan.size_delete distinct outside above] at sized
  rw [tree_of_keeps (fun inv => Scan.keeps_size inv builder.config.input), sized]
  exact ⟨rfl, planned⟩

end Builder

namespace Program

/-! Commands -/

theorem keeps_topology (inv : Tree → Prop) (cluster store : Path) :
    Keeps inv (topology files cluster store) := by
  have whole (path : Path) : Keeps inv (files.readWhole path) := by
    intro tree holds
    rwa [Checksum.perform_read_whole]
  have loading {α : Type} (read : Json.Reader α) (path : Path) :
      Keeps inv (loadJson files read path) := by
    apply keeps_bind (keeps_adapt _ (whole path))
    intro bytes
    split
    · exact keeps_throw _
    · split
      · exact keeps_pure _
      · exact keeps_throw _
  have given {ε α : Type} (result : Except ε α) :
      Keeps inv (ExceptT.mk (pure result) : ExceptT ε (StateM Tree) α) := fun _ holds => holds
  apply keeps_bind (keeps_adapt _ (keeps_bind (loading _ cluster) fun _ => given _))
  intro cluster
  apply keeps_bind (keeps_adapt _ (keeps_bind (loading _ store) fun _ => given _))
  intro store
  exact keeps_pure _

theorem perform_settings {α : Type} (result : Except ConfigError α) (tree : Tree) :
    perform (ExceptT.mk (pure (settings result)) : ExceptT Failure (StateM Tree) α) tree =
      (settings result, tree) := rfl

theorem settings_ok {α : Type} {result : Except ConfigError α} {value : α}
    (done : settings result = .ok value) : result = .ok value := by
  cases result with
  | error error => cases done
  | ok given => rw [Except.ok.inj done]

theorem builder_ok {request : CommandLine.BuildRequest} {builder : Builder} {tree loaded : Tree}
    (done : perform (Program.builder files request) tree = (.ok builder, loaded)) :
    loaded = tree ∧
      perform (topology files request.cluster request.store) tree =
        (.ok (builder.cluster, builder.store), tree) ∧
      (buildArguments request builder.store).config = .ok builder.config := by
  have kept := tree_of_keeps (fun inv => keeps_topology inv request.cluster request.store) tree
  rw [Program.builder] at done
  rcases bind_ok done with ⟨⟨cluster, store⟩, middle, loading, configuring⟩
  rw [loading, Prod.mk.injEq] at kept
  rw [kept.2] at loading configuring
  rcases bind_ok configuring with ⟨config, same, checked, finished⟩
  rw [perform_settings, Prod.mk.injEq] at checked
  rw [perform_pure, Prod.mk.injEq, Except.ok.injEq] at finished
  rw [← finished.1, ← finished.2, ← checked.2]
  exact ⟨rfl, loading, settings_ok checked.1⟩

/-- The chunk sizes that a plan and a build accept are the same, and so are their bytes. A plan made
for the cluster, the store, the input and the chunk size of a build that then succeeds has the input
bytes and the chunks of that build, for whatever replication the build is told to record. -/
theorem plan_predicts_build {tree : Tree} (distinct : tree.Distinct) :
    (∀ arguments : BuildArguments, arguments.checksumArguments.options.isOk = true →
      arguments.replication ≠ 0 →
        arguments.config.map (·.chunkSize) = chunkSize arguments.chunkSize) ∧
    (∀ (engine : JobEngine (StateM Tree)) (builder : Builder) (submission : Submission)
        (summary : BuildSummary) (after : Tree),
      builder.config.input.startsWith builder.config.temp = false →
      builder.config.temp.startsWith builder.config.input = false →
      perform (builder.build files engine submission) tree = (.ok summary, after) →
        perform (Scan.size files builder.config.input) tree = (.ok summary.inputBytes, tree) ∧
        summary.plan = ChunkPlan.compute (UInt64.ofNat summary.inputBytes)
          builder.store.replication builder.cluster.size
          (UInt64.ofNat builder.config.chunkSize)) ∧
    ∀ (engine : JobEngine (StateM Tree)) (request : CommandLine.BuildRequest)
        (format : CommandLine.PlanFormat) (builder : Builder) (submission : Submission)
        (summary : BuildSummary) (loaded after : Tree),
      request.input.startsWith request.temp = false →
      request.temp.startsWith request.input = false →
      perform (Program.builder files request) tree = (.ok builder, loaded) →
      perform (builder.build files engine submission) loaded = (.ok summary, after) →
        ∃ report, perform (planReport files
            ⟨request.cluster, request.store, request.input, request.chunkSize, format⟩) tree =
              (.ok report, tree) ∧
          report.inputBytes = summary.inputBytes ∧ report.plan = summary.plan ∧
            report.chunkSize = builder.config.chunkSize := by
  refine ⟨fun _ => BuildArguments.chunk_size_eq, ?_, ?_⟩
  · intro engine builder submission summary after outside above done
    exact Builder.build_planned distinct outside above done
  · intro engine request format builder submission summary loaded after outside above made done
    rcases builder_ok made with ⟨rfl, topologyLoaded, accepted⟩
    rcases BuildArguments.config_ok accepted with ⟨checked, held, input, temp⟩
    have sizes := BuildArguments.chunk_size_eq checked held
    rw [accepted] at sizes
    have read : perform (ExceptT.mk (pure (settings (chunkSize request.chunkSize))) :
        ExceptT Failure (StateM Tree) Nat) loaded = (.ok builder.config.chunkSize, loaded) := by
      rw [perform_settings, ← show _ = chunkSize request.chunkSize from sizes]
      rfl
    change builder.config.input = request.input at input
    change builder.config.temp = request.temp at temp
    rw [← input, ← temp] at outside above
    rcases Builder.build_planned distinct outside above done with ⟨sized, planned⟩
    rw [input] at sized
    refine ⟨⟨builder.store.name, builder.store.replication, builder.cluster.size,
      summary.inputBytes, builder.config.chunkSize, summary.plan⟩, ?_, rfl, rfl, rfl⟩
    rw [planReport, perform_bind_ok topologyLoaded]
    simp only
    rw [perform_bind_ok read, perform_bind, perform_adapt, sized, planned]
    rfl

theorem ok_of_option {ε α σ : Type} {result : Except ε α × σ} {value : α}
    (given : result.1.toOption = some value) : result = (.ok value, result.2) := by
  cases result with
  | mk outcome after =>
      cases outcome with
      | error error => cases given
      | ok found => rw [Option.some.inj given]

def describedTree : Tree :=
  let cluster := Bytes.ofText "\x7b\"name\":\"one\",\"nodes\":[\x7b\"id\":7\x7d]\x7d"
  let store := Bytes.ofText "\x7b\"name\":\"users\",\"replication_factor\":2\x7d"
  ((Tree.empty.addFile (.ofText "/cluster") cluster).addFile (.ofText "/store") store).addFile
    (.ofText "/in/a") (Bytes.ofText "k\tv\n")

/-- A build that is told to record another replication than that of its store. -/
def replicatedRequest : CommandLine.BuildRequest where
  cluster := .ofText "/cluster"
  store := .ofText "/store"
  input := .ofText "/in"
  temp := .ofText "/tmp"
  output := .ofText "/out"
  chunkSize := "4"
  replication := some 5
  checksum := false
  checksumArguments := {}

theorem replicated_build_predicted :
    describedTree.Distinct ∧
      ∃ builder summary after report,
        perform (Program.builder files replicatedRequest) describedTree =
          (.ok builder, describedTree) ∧
        builder.config.replication = 5 ∧
        perform (builder.build files (Local.engine files) ⟨"job", "now"⟩) describedTree =
          (.ok summary, after) ∧
        perform (planReport files ⟨.ofText "/cluster", .ofText "/store", .ofText "/in", "4", .text⟩)
          describedTree = (.ok report, describedTree) ∧
        report.inputBytes = 4 ∧ report.plan = summary.plan ∧ report.plan = ⟨2, 2⟩ := by
  have reachable : describedTree.Reachable :=
    ⟨[], .next (.next (.next .start (.addFile _ _ _)) (.addFile _ _ _)) (.addFile _ _ _)⟩
  have built : ((perform (Program.builder files replicatedRequest) describedTree).1.toOption.bind
      fun builder => (perform (builder.build files (Local.engine files) ⟨"job", "now"⟩)
        describedTree).1.toOption.map fun summary =>
          (builder.config.replication, summary.inputBytes, summary.plan)) =
            some (5, 4, ⟨2, 2⟩) := by
    decide +kernel
  rcases Option.bind_eq_some_iff.mp built with ⟨builder, made, mapped⟩
  rcases Option.map_eq_some_iff.mp mapped with ⟨summary, done, numbers⟩
  rw [Prod.mk.injEq, Prod.mk.injEq] at numbers
  have making := ok_of_option made
  have building := ok_of_option done
  have unchanged := (builder_ok making).1
  rw [unchanged] at making
  rcases (plan_predicts_build reachable.distinct).2.2 _ replicatedRequest .text builder _ summary
    _ _ (by decide) (by decide) making building with ⟨report, planned, bytes, plan, _⟩
  refine ⟨reachable.distinct, builder, summary, _, report, making, numbers.1, building, planned, ?_,
    plan, ?_⟩
  · rw [bytes, numbers.2.1]
  · rw [plan, numbers.2.2]

end Program

end ChunkStore
