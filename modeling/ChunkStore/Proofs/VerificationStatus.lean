import ChunkStore.Program
import ChunkStore.Proofs.FileViews
import ChunkStore.Proofs.Tampering

/-!
The exit code of a verification. It is zero just when the checksum arguments are accepted, all that
is needed can be read, and every directory under the output holds the digest of its files in its
manifest. What is printed has no say in it, nor has the size of the pieces in which files are read.
-/

namespace ChunkStore

set_option autoImplicit false

open Stateful

/-! Counting failures -/

namespace Console

theorem verification_lines_eq (colors : Bool) (results : List (Path × Checksum.Verification))
    (failed : Nat) :
    verificationLines colors results failed =
      (results.map fun (directory, result) => verificationLine colors directory result,
        failed + failures results) := by
  induction results generalizing failed with
  | nil => rfl
  | cons entry rest induction =>
      rcases entry with ⟨directory, result⟩
      simp only [verificationLines, induction, List.map_cons, failures]
      cases result with
      | matching digest => rfl
      | mismatch expected actual =>
          simp only [Checksum.Verification.isMatch, Bool.not_false, List.filter_cons_of_pos,
            List.length_cons, Nat.add_assoc, Nat.add_comm 1]
      | missing actual =>
          simp only [Checksum.Verification.isMatch, Bool.not_false, List.filter_cons_of_pos,
            List.length_cons, Nat.add_assoc, Nat.add_comm 1]

theorem print_verification_eq (colors : Bool) (results : List (Path × Checksum.Verification)) :
    printVerification colors results = (verification colors results, failures results) := by
  rw [printVerification, verification_lines_eq, Nat.zero_add]
  rfl

theorem failures_eq_zero_iff (results : List (Path × Checksum.Verification)) :
    failures results = 0 ↔ ∀ entry ∈ results, entry.2.isMatch = true := by
  rw [failures, List.length_eq_zero_iff, List.filter_eq_nil_iff]
  simp

end Console

/-! Answers -/

section answers

variable {ε δ α β : Type}

theorem bind_ok_iff {first : Except ε α} {next : α → Except ε β} {result : β} :
    (first >>= next) = .ok result ↔ ∃ value, first = .ok value ∧ next value = .ok result := by
  cases first <;> simp [bind, Except.bind]

theorem map_ok_iff {answer : Except ε α} {change : α → β} {result : β} :
    answer.map change = .ok result ↔ ∃ value, answer = .ok value ∧ change value = result := by
  cases answer <;> simp [Except.map]

theorem map_error_ok_iff {answer : Except ε α} {change : ε → δ} {value : α} :
    answer.mapError change = .ok value ↔ answer = .ok value := by
  cases answer <;> simp

theorem mapM_ok_forall_iff {answer : α → Except ε β} {good : β → Prop} {elements : List α} :
    (∃ results, elements.mapM answer = .ok results ∧ ∀ result ∈ results, good result) ↔
      ∀ element ∈ elements, ∃ result, answer element = .ok result ∧ good result := by
  induction elements with
  | nil => simp [pure, Except.pure]
  | cons element rest induction =>
      rw [List.forall_mem_cons, ← induction]
      simp only [List.mapM_cons, bind_ok_iff, pure, Except.pure, Except.ok.injEq]
      constructor
      · rintro ⟨_, ⟨result, answered, others, later, rfl⟩, allGood⟩
        rw [List.forall_mem_cons] at allGood
        exact ⟨⟨result, answered, allGood.1⟩, others, later, allGood.2⟩
      · rintro ⟨⟨result, answered, isGood⟩, others, later, othersGood⟩
        exact ⟨result :: others, ⟨result, answered, others, later, rfl⟩,
          List.forall_mem_cons.mpr ⟨isGood, othersGood⟩⟩

end answers

namespace FileSystem.View

open Checksum

variable {m : Type → Type} [Monad m] {Reader Writer σ : Type} [Stateful m σ]
  {files : FileSystem m Reader Writer} (view : View files)

/-! Digests by a view -/

theorem perform_contents_of (path : Path) {size : Nat} (room : 0 < size) (state : σ) :
    perform (contentsOf files path size) state =
      ((view.contents state path).mapError (.read path), state) := by
  rw [contentsOf]
  apply view.perform_reading
  intro reader held opened
  rcases opened.collect room with ⟨left, collected⟩
  exact ⟨left, by rw [perform_adapt, collected]⟩

/-- Files with what they hold, up to the first that cannot be read. -/
def inputs (state : σ) : List Status → Except ChecksumError (List (Path × Bytes))
  | [] => .ok []
  | status :: rest => do
      let contents ← (view.contents state status.path).mapError (.read status.path)
      let others ← inputs state rest
      .ok ((status.path, contents) :: others)

theorem perform_contents_of_each {size : Nat} (room : 0 < size) (statuses : List Status)
    (state : σ) :
    perform (contentsOfEach files size statuses) state = (view.inputs state statuses, state) := by
  induction statuses with
  | nil => exact perform_pure _ _
  | cons status rest induction =>
      rw [contentsOfEach, perform_bind, view.perform_contents_of status.path room, inputs]
      cases (view.contents state status.path).mapError (ChecksumError.read status.path) with
      | error error => rfl
      | ok contents =>
          simp only
          rw [perform_bind, induction]
          cases view.inputs state rest with
          | error error => rfl
          | ok others => exact perform_pure _ _

theorem inputs_ok_iff {state : σ} {statuses : List Status} {contents : List Bytes} :
    (∃ inputs, view.inputs state statuses = .ok inputs ∧ inputs.map (·.2) = contents) ↔
      statuses.map (fun status => view.contents state status.path) = contents.map .ok := by
  induction statuses generalizing contents with
  | nil => cases contents <;> simp [inputs]
  | cons status rest induction =>
      simp only [inputs, bind_ok_iff, map_error_ok_iff, Except.ok.injEq, List.map_cons]
      cases contents with
      | nil => simp
      | cons held others =>
          rw [List.map_cons, List.cons.injEq, ← induction]
          constructor
          · rintro ⟨_, ⟨_, read, later, given, rfl⟩, same⟩
            rw [List.map_cons, List.cons.injEq] at same
            exact ⟨same.1 ▸ read, later, given, same.2⟩
          · rintro ⟨read, later, given, rfl⟩
            exact ⟨_, ⟨held, read, later, given, rfl⟩, rfl⟩

def manifest (state : σ) (directory : Path) : Except ChecksumError (Option Bytes) := do
  let path := manifestPath directory
  if ← (view.isPresent state path).mapError (.read path) then
    ((view.contents state path).mapError (.read path)).map some
  else .ok none

def verification (order : ChecksumOrder) (state : σ) (directory : Path) :
    Except ChecksumError Verification := do
  let expected ← view.manifest state directory
  let entries ← (view.list state directory).mapError (.list directory)
  let inputs ← view.inputs state (order.inputs manifestName entries)
  .ok (.compare expected (Md5.digest (Md5.joined (inputs.map (·.2)))))

theorem perform_read_manifest (directory : Path) (state : σ) :
    perform (readManifest files directory) state = (view.manifest state directory, state) := by
  rw [readManifest, perform_bind, perform_adapt, view.asked, manifest]
  cases view.isPresent state (manifestPath directory) with
  | error error => rfl
  | ok present =>
      cases present with
      | false => exact perform_pure _ _
      | true =>
          simp only [map_error_ok, if_true]
          rw [perform_bind, perform_adapt, view.perform_read_whole]
          cases view.contents state (manifestPath directory) with
          | error error => rfl
          | ok contents => exact perform_pure _ _

theorem perform_verify (options : ChecksumOptions) (directory : Path) (state : σ) :
    perform (verify files options directory) state =
      (view.verification options.order state directory, state) := by
  rw [verify, perform_bind, view.perform_read_manifest, verification]
  cases view.manifest state directory with
  | error error => rfl
  | ok expected =>
      simp only
      rw [perform_bind, perform_of_directory_contents, digestedFiles, perform_bind, perform_adapt,
        view.listed]
      cases view.list state directory with
      | error error => rfl
      | ok entries =>
          simp only [map_error_ok]
          rw [view.perform_contents_of_each (by omega)]
          simp only [bind, Except.bind]
          cases view.inputs state (options.order.inputs manifestName entries) with
          | error error => rfl
          | ok inputs => exact perform_pure _ _

def verifications (order : ChecksumOrder) (state : σ) (output : Path) :
    Except ChecksumError (List (Path × Verification)) := do
  let entries ← (view.list state output).mapError (.list output)
  ((entries.filter (·.isDirectory)).map (·.path)).mapM fun directory =>
    (view.verification order state directory).map (directory, ·)

theorem perform_verify_all (options : ChecksumOptions) (output : Path) (state : σ) :
    perform (verifyAll files options output) state =
      (view.verifications options.order state output, state) := by
  rw [verifyAll, nodeDirectories, perform_bind, perform_bind, perform_adapt, view.listed,
    verifications]
  cases view.list state output with
  | error error => rfl
  | ok entries =>
      simp only [map_error_ok, perform_pure]
      apply perform_mapM_asking
      intro directory _
      rw [perform_bind, view.perform_verify]
      cases view.verification options.order state directory with
      | error error => rfl
      | ok found => exact perform_pure _ _

/-! Signed directories -/

/-- The manifest of a directory holds the digest of its files, of their digests in order. -/
def Signed (order : ChecksumOrder) (state : σ) (directory : Path) : Prop :=
  ∃ (entries : List Status) (contents : List Bytes), view.list state directory = .ok entries ∧
    (order.inputs manifestName entries).map (fun file => view.contents state file.path) =
      contents.map .ok ∧
    view.contents state (manifestPath directory) = .ok (Md5.digest (contents.flatMap Md5.digest))

theorem compare_matches_iff (expected : Option Bytes) (actual : Bytes) :
    (Verification.compare expected actual).isMatch = true ↔ expected = some actual := by
  cases expected with
  | none => simp [Verification.compare, Verification.isMatch]
  | some held =>
      by_cases same : held = actual
      · simp [Verification.compare, Verification.isMatch, same]
      · simp [Verification.compare, Verification.isMatch, same]

theorem manifest_holds_iff (state : σ) (directory : Path) (bytes : Bytes) :
    view.manifest state directory = .ok (some bytes) ↔
      view.contents state (manifestPath directory) = .ok bytes := by
  rw [manifest]
  constructor
  · intro held
    rcases bind_ok_iff.mp held with ⟨present, _, read⟩
    cases present with
    | false => cases read
    | true =>
        simp only [if_true, map_ok_iff, map_error_ok_iff, Option.some.injEq] at read
        rcases read with ⟨_, read, rfl⟩
        exact read
  · intro held
    rw [view.present_of_contents state _ bytes held, held]
    rfl

theorem verification_matches_iff (order : ChecksumOrder) (state : σ) (directory : Path) :
    (∃ found, view.verification order state directory = .ok found ∧ found.isMatch = true) ↔
      view.Signed order state directory := by
  simp only [verification, bind_ok_iff, map_error_ok_iff, Except.ok.injEq]
  constructor
  · rintro ⟨_, ⟨expected, held, entries, listed, inputs, given, rfl⟩, isMatch⟩
    rw [compare_matches_iff] at isMatch
    refine ⟨entries, inputs.map (·.2), listed, view.inputs_ok_iff.mp ⟨inputs, given, rfl⟩, ?_⟩
    rw [← view.manifest_holds_iff, held, isMatch]
    rfl
  · rintro ⟨entries, contents, listed, read, signed⟩
    rcases view.inputs_ok_iff.mpr read with ⟨inputs, given, rfl⟩
    refine ⟨_, ⟨_, (view.manifest_holds_iff state directory _).mpr signed, entries, listed, inputs,
      given, rfl⟩, ?_⟩
    rw [compare_matches_iff]
    rfl

theorem verifications_match_iff (order : ChecksumOrder) (state : σ) (output : Path) :
    (∃ results, view.verifications order state output = .ok results ∧
      Console.failures results = 0) ↔
    ∃ entries, view.list state output = .ok entries ∧
      ∀ entry ∈ entries, entry.isDirectory = true → view.Signed order state entry.path := by
  have directories (entries : List Status) :
      (∃ results, ((entries.filter (·.isDirectory)).map (·.path)).mapM (fun directory =>
          (view.verification order state directory).map (directory, ·)) = .ok results ∧
        ∀ result ∈ results, result.2.isMatch = true) ↔
      ∀ entry ∈ entries, entry.isDirectory = true → view.Signed order state entry.path := by
    rw [mapM_ok_forall_iff, List.forall_mem_map]
    simp only [List.mem_filter, and_imp, map_ok_iff, ← view.verification_matches_iff]
    apply forall₃_congr
    intro entry _ _
    constructor
    · rintro ⟨_, ⟨found, done, rfl⟩, isMatch⟩
      exact ⟨found, done, isMatch⟩
    · rintro ⟨found, done, isMatch⟩
      exact ⟨_, ⟨found, done, rfl⟩, isMatch⟩
  simp only [verifications, bind_ok_iff, map_error_ok_iff, Console.failures_eq_zero_iff]
  constructor
  · rintro ⟨results, ⟨entries, listed, found⟩, allMatch⟩
    exact ⟨entries, listed, (directories entries).mp ⟨results, found, allMatch⟩⟩
  · rintro ⟨entries, listed, signed⟩
    rcases (directories entries).mpr signed with ⟨results, found, allMatch⟩
    exact ⟨results, ⟨entries, listed, found⟩, allMatch⟩

/-- The checksum arguments of a request are accepted, and every directory that the listing of its
output shows is signed in the order that they ask for. -/
def Verified (request : CommandLine.ManifestRequest) (state : σ) : Prop :=
  (∃ options, request.checksumArguments.options = .ok options) ∧
    ∃ entries, view.list state request.output = .ok entries ∧
      ∀ entry ∈ entries, entry.isDirectory = true →
        view.Signed (if request.checksumArguments.sorted then .byName else .listing) state
          entry.path

end FileSystem.View

/-! The command -/

namespace Program

open CommandLine

theorem options_order {arguments : ChecksumArguments} {options : ChecksumOptions}
    (accepted : arguments.options = .ok options) :
    options.order = if arguments.sorted then .byName else .listing := by
  rw [ChecksumArguments.options] at accepted
  rcases bind_ok_iff.mp accepted with ⟨_, _, rest⟩
  rcases bind_ok_iff.mp rest with ⟨_, _, made⟩
  rw [← Except.ok.inj made]

theorem verified_exit_code (colors quiet : Bool)
    (results : List (Path × Checksum.Verification)) :
    (verified colors quiet results).exitCode = if Console.failures results = 0 then 0 else 1 := by
  rw [verified, Console.print_verification_eq]
  cases quiet with
  | true => simp [Nat.pos_iff_ne_zero]
  | false => simp [Nat.pos_iff_ne_zero]

section

variable {m : Type → Type} [Monad m] {Reader Writer σ : Type} [Stateful m σ]
  {files : FileSystem m Reader Writer} (view : FileSystem.View files)

theorem exec_verify (colors quiet : Bool) (request : ManifestRequest) (state : σ) :
    exec (verify colors files quiet request) state =
      (match settings request.checksumArguments.options with
        | .error failure => .failed "" failure
        | .ok options =>
            match view.verifications options.order state request.output with
            | .error error => .failed "" ⟨"Verification failed", error.trail⟩
            | .ok results => verified colors quiet results, state) := by
  have accepts : perform (checksumOptions request.checksumArguments : ExceptT Failure m _) state =
      (settings request.checksumArguments.options, state) := exec_pure _ _
  have body : perform (do
      let options ← checksumOptions request.checksumArguments
      (Checksum.verifyAll files options request.output).adapt fun error =>
        (⟨"Verification failed", error.trail⟩ : Failure)) state =
      ((settings request.checksumArguments.options).bind fun options =>
        (view.verifications options.order state request.output).mapError fun error =>
          ⟨"Verification failed", error.trail⟩, state) := by
    rw [perform_bind, accepts]
    cases settings request.checksumArguments.options with
    | error failure => rfl
    | ok options =>
        simp only
        rw [perform_adapt, view.perform_verify_all]
        rfl
  rw [verify, exec_bind, ← perform, body]
  cases settings request.checksumArguments.options with
  | error failure => exact exec_pure _ _
  | ok options =>
      simp only [Except.bind]
      cases view.verifications options.order state request.output with
      | error error => exact exec_pure _ _
      | ok results => exact exec_pure _ _

theorem verified_iff {request : ManifestRequest} {options : ChecksumOptions}
    (accepted : request.checksumArguments.options = .ok options) (state : σ) :
    view.Verified request state ↔
      ∃ results, view.verifications options.order state request.output = .ok results ∧
        Console.failures results = 0 := by
  rw [view.verifications_match_iff, options_order accepted]
  exact ⟨And.right, fun signed => ⟨⟨options, accepted⟩, signed⟩⟩

theorem verify_outcome (colors quiet : Bool) (request : ManifestRequest) (state : σ) :
    (exec (verify colors files quiet request) state).1.exitCode = 0 ∧ view.Verified request state ∨
      (exec (verify colors files quiet request) state).1.exitCode = 1 ∧
        ¬ view.Verified request state := by
  rw [exec_verify view]
  cases accepted : request.checksumArguments.options with
  | error error =>
      refine .inr ⟨rfl, ?_⟩
      rintro ⟨⟨options, others⟩, _⟩
      rw [accepted] at others
      cases others
  | ok options =>
      have settled : settings (.ok options) = .ok options := rfl
      simp only [settled]
      rw [verified_iff view accepted]
      cases view.verifications options.order state request.output with
      | error error =>
          refine .inr ⟨rfl, ?_⟩
          rintro ⟨_, none, _⟩
          cases none
      | ok results =>
          simp only [verified_exit_code, Except.ok.injEq, exists_eq_left']
          by_cases allMatch : Console.failures results = 0
          · exact .inl ⟨if_pos allMatch, allMatch⟩
          · exact .inr ⟨if_neg allMatch, allMatch⟩

def exitCode (surroundings : Surroundings m) (files : FileSystem m Reader Writer)
    (invocation : Invocation) (state : σ) : UInt32 :=
  (exec (runCommand surroundings files invocation) state).1.exitCode

theorem exit_code_of_view (surroundings : Surroundings m) (quiet verbose : Bool)
    (request : ManifestRequest) (state : σ) :
    (exitCode surroundings files ⟨quiet, verbose, .verify request⟩ state = 0 ↔
      view.Verified request state) ∧
    (exitCode surroundings files ⟨quiet, verbose, .verify request⟩ state = 1 ↔
      ¬ view.Verified request state) := by
  have outcome := verify_outcome view surroundings.colors quiet request state
  rw [exitCode, runCommand]
  rcases outcome with ⟨code, isVerified⟩ | ⟨code, isNot⟩
  · simp [code, isVerified]
  · simp [code, isNot]

end

/-- On files in memory and on a disk, a verification succeeds just when its request is verified, and
fails with one code in every other case. -/
theorem verify_exit_code (quiet verbose : Bool) (request : ManifestRequest) :
    (∀ (surroundings : Surroundings (StateM Memory.Tree)) (tree : Memory.Tree),
      (exitCode surroundings Memory.files ⟨quiet, verbose, .verify request⟩ tree = 0 ↔
        Memory.view.Verified request tree) ∧
      (exitCode surroundings Memory.files ⟨quiet, verbose, .verify request⟩ tree = 1 ↔
        ¬ Memory.view.Verified request tree)) ∧
    ∀ (surroundings : Surroundings (StateM Disk.Tree)) (disk : Disk.Tree),
      (exitCode surroundings Disk.files ⟨quiet, verbose, .verify request⟩ disk = 0 ↔
        Disk.view.Verified request disk) ∧
      (exitCode surroundings Disk.files ⟨quiet, verbose, .verify request⟩ disk = 1 ↔
        ¬ Disk.view.Verified request disk) :=
  ⟨fun surroundings => exit_code_of_view Memory.view surroundings quiet verbose request,
    fun surroundings => exit_code_of_view Disk.view surroundings quiet verbose request⟩

/-- A node with one chunk and a manifest that holds its digest and some bytes more. -/
def nodeWithManifest (more : Bytes) : Memory.Tree :=
  ((Memory.Tree.empty.addFile (.ofText "/out/node/0.data") [1, 2]).addFile
      (.ofText "/out/node/0.index") [3]).addFile
    (.ofText "/out/node/checkSum.txt") (Md5.digest (Md5.joined [[1, 2], [3]]) ++ more)

def outRequest : ManifestRequest := ⟨.ofText "/out", {}⟩

def fixedSurroundings : Surroundings (StateM Memory.Tree) := ⟨pure ⟨"job", "now"⟩, pure 0, false⟩

theorem out_request_accepted : outRequest.checksumArguments.options = .ok {} := by decide +kernel

theorem out_verified_iff {tree : Memory.Tree} {count : Nat}
    (counted : (Memory.view.verifications .listing tree outRequest.output).map Console.failures =
      .ok count) : Memory.view.Verified outRequest tree ↔ count = 0 := by
  rw [verified_iff Memory.view out_request_accepted]
  rcases map_ok_iff.mp counted with ⟨results, found, rfl⟩
  simp only [found, Except.ok.injEq, exists_eq_left']

theorem manifest_is_exact :
    exitCode fixedSurroundings Memory.files ⟨true, false, .verify outRequest⟩
        (nodeWithManifest []) = 0 ∧
      exitCode fixedSurroundings Memory.files ⟨false, true, .verify outRequest⟩
        (nodeWithManifest [0]) = 1 := by
  have whole : (Memory.view.verifications .listing (nodeWithManifest []) outRequest.output).map
      Console.failures = .ok 0 := by
    simp only [FileSystem.View.verifications, FileSystem.View.verification, ChecksumOrder.inputs,
      ChecksumOrder.arrange_listing]
    decide +kernel
  have longer : (Memory.view.verifications .listing (nodeWithManifest [0]) outRequest.output).map
      Console.failures = .ok 1 := by
    simp only [FileSystem.View.verifications, FileSystem.View.verification, ChecksumOrder.inputs,
      ChecksumOrder.arrange_listing]
    decide +kernel
  have quiet := (verify_exit_code true false outRequest).1 fixedSurroundings (nodeWithManifest [])
  have verbose := (verify_exit_code false true outRequest).1 fixedSurroundings
    (nodeWithManifest [0])
  refine ⟨quiet.1.mpr ((out_verified_iff whole).mpr rfl), verbose.2.mpr ?_⟩
  intro isVerified
  exact absurd ((out_verified_iff longer).mp isVerified) (by decide)

end Program

end ChunkStore
