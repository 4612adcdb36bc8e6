import ChunkStore.Proofs.Aggregation
import Mathlib.Algebra.GroupWithZero.Nat

/-!
Tampering. A digest of a directory is taken of the digests of its files, so two directories with
one digest hold the same contents in the same order, or two different byte strings with one MD5
are at hand among what was hashed. Nothing is asked of the file system: the contents meant are
those that its reads gave.
-/

namespace ChunkStore

set_option autoImplicit false

open Stateful

/-! Collisions -/

namespace Md5

/-- The digests of contents one after the other, which is what a directory's digest is taken of. -/
def joined (contents : List Bytes) : Bytes := contents.flatMap digest

/-- What is hashed for a directory with such contents: each of them, and their digests joined. -/
def hashed (contents : List Bytes) : List Bytes := joined contents :: contents

/-- Two different byte strings with one digest, both among those given. -/
def Collision (candidates : List Bytes) : Prop :=
  ∃ left ∈ candidates, ∃ right ∈ candidates, left ≠ right ∧ digest left = digest right

theorem Collision.mono {fewer more : List Bytes} (collision : Collision fewer)
    (inside : fewer ⊆ more) : Collision more := by
  obtain ⟨left, leftMember, right, rightMember, collides⟩ := collision
  exact ⟨left, inside leftMember, right, inside rightMember, collides⟩

/-- Digests have one width, so joined they can be told apart again. -/
theorem joined_injective {left right : List Bytes} (same : joined left = joined right) :
    left.map digest = right.map digest := by
  induction left generalizing right with
  | nil =>
      cases right with
      | nil => rfl
      | cons other others =>
          have lengths := congrArg List.length same
          rw [joined, joined, List.flatMap_cons, List.length_append, digest_length] at lengths
          simp [digestSize] at lengths
          omega
  | cons contents rest induction =>
      cases right with
      | nil =>
          have lengths := congrArg List.length same
          simp [joined, digest_length, digestSize] at lengths
      | cons other others =>
          rw [joined, joined, List.flatMap_cons, List.flatMap_cons] at same
          obtain ⟨first, later⟩ := List.append_inj same (by rw [digest_length, digest_length])
          rw [List.map_cons, List.map_cons, first, induction later]

/-- Lists whose digests agree in turn agree, or they collide where they first differ. -/
theorem eq_or_collision_of_map {left right : List Bytes}
    (same : left.map digest = right.map digest) :
    left = right ∨ Collision (left ++ right) := by
  induction left generalizing right with
  | nil => exact Or.inl (List.map_eq_nil_iff.mp same.symm).symm
  | cons contents rest induction =>
      cases right with
      | nil => exact absurd same (by simp)
      | cons other others =>
          obtain ⟨first, later⟩ := List.cons.inj same
          by_cases equal : contents = other
          · subst equal
            rcases induction later with rfl | collision
            · exact Or.inl rfl
            · have inside := (List.sublist_cons_self contents rest).append
                (List.sublist_cons_self contents others)
              exact Or.inr (collision.mono inside.subset)
          · exact Or.inr ⟨contents, by simp, other, by simp, equal, first⟩

/-- Two directories with one digest have the same contents, or a collision is exhibited. -/
theorem eq_or_collision {left right : List Bytes}
    (same : digest (joined left) = digest (joined right)) :
    left = right ∨ Collision (hashed left ++ hashed right) := by
  by_cases aligned : joined left = joined right
  · rcases eq_or_collision_of_map (joined_injective aligned) with equal | collision
    · exact Or.inl equal
    · have inside := (List.sublist_cons_self (joined left) left).append
        (List.sublist_cons_self (joined right) right)
      exact Or.inr (collision.mono inside.subset)
  · exact Or.inr ⟨joined left, by simp [hashed], joined right, by simp [hashed], aligned, same⟩

end Md5

namespace Checksum

/-! What was digested -/

section contents

variable {m : Type → Type} [Monad m] {Reader Writer : Type}

def contentsOf (files : FileSystem m Reader Writer) (path : Path) (size : Nat) :
    ExceptT ChecksumError m Bytes :=
  files.reading (.read path) path fun patience =>
    (Source.collect files.read size patience []).adapt (.read path)

def contentsOfEach (files : FileSystem m Reader Writer) (size : Nat) :
    List Status → ExceptT ChecksumError m (List (Path × Bytes))
  | [] => pure []
  | status :: rest => do
      let contents ← contentsOf files status.path size
      let others ← contentsOfEach files size rest
      pure ((status.path, contents) :: others)

/-- The files of a directory that count for its digest, in checksum order and with their
contents. -/
def digestedFiles (files : FileSystem m Reader Writer) (options : ChecksumOptions)
    (directory : Path) : ExceptT ChecksumError m (List (Path × Bytes)) := do
  let entries ← (files.list directory).adapt (.list directory)
  contentsOfEach files (max options.bufferSize 1) (options.order.inputs manifestName entries)

def NodeDigest.ofContents (directory : Path) (inputs : List (Path × Bytes)) : NodeDigest where
  directory
  digest := Md5.digest (Md5.joined (inputs.map (·.2)))
  files := inputs.map (·.1)
  bytes := (inputs.map (·.2.length)).sum

variable {σ : Type} [Stateful m σ]

/-- To hash a source is to hash all that it gives: it is read by the same calls. -/
theorem perform_hash_source (source : Source m) (size patience : Nat) (hasher : Md5.Hasher)
    (got : Bytes) (state : σ) :
    perform (hashSource source size patience (hasher.update got.reverse)) state =
      ((perform (Source.collect source size patience got) state).1.map hasher.update,
        (perform (Source.collect source size patience got) state).2) := by
  induction patience generalizing got state with
  | zero =>
      rw [hashSource, Source.collect, perform_pure, perform_pure]
      rfl
  | succ patience induction =>
      rw [hashSource, Source.collect, perform_bind, perform_bind, perform_outcome]
      cases perform (source size) state with
      | mk result after =>
          cases result with
          | error error =>
              by_cases interrupted : error.isInterruption = true
              · simp only [interrupted, if_true]
                exact induction got after
              · simp only [if_neg interrupted, perform_throw]
                rfl
          | ok piece =>
              cases piece with
              | nil =>
                  simp only [perform_pure]
                  rfl
              | cons byte bytes =>
                  have further : (hasher.update got.reverse).update (byte :: bytes) =
                      hasher.update ((byte :: bytes).reverseAux got).reverse := by
                    rw [Source.reverse_reverse_aux, Md5.update_append]
                  simp only [further]
                  exact induction _ after

theorem perform_of_file_contents (files : FileSystem m Reader Writer) (path : Path) (size : Nat)
    (state : σ) :
    perform (ofFile files path size) state =
      ((perform (contentsOf files path size) state).1.map fun contents =>
          (Md5.digest contents, contents.length),
        (perform (contentsOf files path size) state).2) := by
  rw [ofFile, contentsOf, perform_reading, perform_reading]
  cases perform (files.openReader path) state with
  | mk result after =>
      cases result with
      | error error => rfl
      | ok reader =>
          have read := perform_hash_source files.read size (files.patience reader + 1) .initial []
            (reader, after)
          rw [List.reverse_nil, Md5.update_nil] at read
          simp only [perform_bind, perform_adapt, read]
          cases (perform (Source.collect files.read size (files.patience reader + 1) [])
              (reader, after)).1 with
          | error error => rfl
          | ok contents =>
              simp only [Except.map, map_error_ok, perform_pure, Md5.total_update]
              simp [Md5.digest, Md5.Hasher.initial]

theorem perform_hash_files_contents (files : FileSystem m Reader Writer) (size : Nat)
    (statuses : List Status) (hasher : Md5.Hasher) (bytes : Nat) (state : σ) :
    perform (hashFiles files size statuses (hasher, bytes)) state =
      ((perform (contentsOfEach files size statuses) state).1.map fun inputs =>
          (hasher.update (Md5.joined (inputs.map (·.2))), bytes + (inputs.map (·.2.length)).sum),
        (perform (contentsOfEach files size statuses) state).2) := by
  induction statuses generalizing hasher bytes state with
  | nil =>
      rw [hashFiles, contentsOfEach, perform_pure, perform_pure]
      rfl
  | cons status rest induction =>
      rw [hashFiles, contentsOfEach, perform_bind, perform_bind, perform_of_file_contents]
      cases perform (contentsOf files status.path size) state with
      | mk result after =>
          cases result with
          | error error => rfl
          | ok contents =>
              simp only [Except.map, perform_bind, induction]
              cases perform (contentsOfEach files size rest) after with
              | mk others final =>
                  cases others with
                  | error error => rfl
                  | ok inputs =>
                      simp only [perform_pure, Md5.joined, List.map_cons,
                        List.flatMap_cons, List.sum_cons, Md5.update_append, Nat.add_assoc]

theorem paths_of_each {files : FileSystem m Reader Writer} {size : Nat} {statuses : List Status}
    {inputs : List (Path × Bytes)} {state after : σ}
    (read : perform (contentsOfEach files size statuses) state = (.ok inputs, after)) :
    inputs.map (·.1) = statuses.map (·.path) := by
  induction statuses generalizing inputs state after with
  | nil =>
      rw [contentsOfEach, perform_pure] at read
      rw [← Except.ok.inj (congrArg Prod.fst read)]
      rfl
  | cons status rest induction =>
      rw [contentsOfEach] at read
      obtain ⟨contents, between, _, others⟩ := bind_ok read
      obtain ⟨later, final, readLater, together⟩ := bind_ok others
      rw [perform_pure] at together
      rw [← Except.ok.inj (congrArg Prod.fst together), List.map_cons, List.map_cons,
        induction readLater]

/-- The digest of a directory is that of the contents of its files: it succeeds and fails with
reading them, and leaves behind what that does. -/
theorem perform_of_directory_contents (files : FileSystem m Reader Writer)
    (options : ChecksumOptions) (directory : Path) (state : σ) :
    perform (ofDirectory files options directory) state =
      ((perform (digestedFiles files options directory) state).1.map (.ofContents directory),
        (perform (digestedFiles files options directory) state).2) := by
  rw [ofDirectory, digestedFiles, perform_bind, perform_bind, perform_adapt]
  cases perform (files.list directory) state with
  | mk result after =>
      cases result with
      | error error => rfl
      | ok entries =>
          simp only [map_error_ok, perform_bind, perform_hash_files_contents]
          cases each : perform (contentsOfEach files (max options.bufferSize 1)
              (options.order.inputs manifestName entries)) after with
          | mk inputs final =>
              cases inputs with
              | error error => rfl
              | ok inputs =>
                  simp only [Except.map, perform_pure, ← paths_of_each each, Nat.zero_add]
                  rfl

/-- What the files of a directory that count for its digest hold, in checksum order. -/
def Holds (files : FileSystem m Reader Writer) (options : ChecksumOptions) (directory : Path)
    (state : σ) (contents : List Bytes) : Prop :=
  ∃ inputs after, perform (digestedFiles files options directory) state = (.ok inputs, after) ∧
    inputs.map (·.2) = contents

theorem holds_of_digested {files : FileSystem m Reader Writer} {options : ChecksumOptions}
    {directory : Path} {state after : σ} {node : NodeDigest}
    (done : perform (ofDirectory files options directory) state = (.ok node, after)) :
    ∃ contents, Holds files options directory state contents ∧
      node.digest = Md5.digest (Md5.joined contents) := by
  rw [perform_of_directory_contents] at done
  cases read : perform (digestedFiles files options directory) state with
  | mk result final =>
      rw [read] at done
      cases result with
      | error error => exact absurd (congrArg Prod.fst done) (by simp [Except.map])
      | ok inputs =>
          have same := Except.ok.inj (congrArg Prod.fst done)
          exact ⟨_, ⟨inputs, final, read, rfl⟩, congrArg NodeDigest.digest same.symm⟩

/-- A directory holds in two states the same contents in the same order, or two different byte
strings with one digest are among the contents and their digests joined. -/
def AlikeOrColliding (files : FileSystem m Reader Writer) (options laterOptions : ChecksumOptions)
    (directory : Path) (state later : σ) : Prop :=
  ∃ contents laterContents, Holds files options directory state contents ∧
    Holds files laterOptions directory later laterContents ∧
      (contents = laterContents ∨ Md5.Collision (Md5.hashed contents ++ Md5.hashed laterContents))

theorem alike_of_digests {files : FileSystem m Reader Writer}
    {options laterOptions : ChecksumOptions} {directory : Path} {state later after final : σ}
    {node laterNode : NodeDigest}
    (done : perform (ofDirectory files options directory) state = (.ok node, after))
    (again : perform (ofDirectory files laterOptions directory) later = (.ok laterNode, final))
    (same : node.digest = laterNode.digest) :
    AlikeOrColliding files options laterOptions directory state later := by
  obtain ⟨contents, held, digested⟩ := holds_of_digested done
  obtain ⟨laterContents, laterHeld, laterDigested⟩ := holds_of_digested again
  rw [digested, laterDigested] at same
  exact ⟨contents, laterContents, held, laterHeld, Md5.eq_or_collision same⟩

theorem digested_of_aggregated {files : FileSystem m Reader Writer} {options : ChecksumOptions}
    {directory : Path} {state after : σ} {node : NodeDigest}
    (done : perform (aggregate files options directory) state = (.ok node, after)) :
    ∃ between, perform (ofDirectory files options directory) state = (.ok node, between) := by
  rw [aggregate] at done
  obtain ⟨digested, between, first, rest⟩ := bind_ok done
  obtain ⟨_, written, _, given⟩ := bind_ok rest
  rw [perform_pure] at given
  rw [← Except.ok.inj (congrArg Prod.fst given)]
  exact ⟨between, first⟩

theorem digested_of_verified {files : FileSystem m Reader Writer} {options : ChecksumOptions}
    {directory : Path} {state after : σ} {found : Verification}
    (done : perform (verify files options directory) state = (.ok found, after)) :
    ∃ expected read node, perform (readManifest files directory) state = (.ok expected, read) ∧
      perform (ofDirectory files options directory) read = (.ok node, after) ∧
      found = .compare expected node.digest := by
  rw [verify] at done
  obtain ⟨expected, read, first, rest⟩ := bind_ok done
  obtain ⟨node, final, second, given⟩ := bind_ok rest
  rw [perform_pure, Prod.mk.injEq] at given
  obtain ⟨compared, rfl⟩ := given
  exact ⟨expected, read, node, first, second, (Except.ok.inj compared).symm⟩

theorem digest_of_matching {expected : Option Bytes} {actual digest : Bytes}
    (matching : Verification.compare expected actual = .matching digest) :
    expected = some actual := by
  cases expected with
  | none => exact absurd matching (by simp [Verification.compare])
  | some held =>
      by_cases same : held = actual
      · rw [same]
      · rw [Verification.compare, if_neg same] at matching
        exact absurd matching (by simp)

/-- Where a directory has the digest that it had, or matches the manifest that was made of it, it
holds what it held, or a collision of the digest is exhibited. What is checked against a manifest
is the state in which reading the manifest leaves the files. -/
theorem tampering_detected (files : FileSystem m Reader Writer)
    (options laterOptions : ChecksumOptions) (directory : Path) (state later : σ) :
    (∀ node laterNode after final,
        perform (ofDirectory files options directory) state = (.ok node, after) →
        perform (ofDirectory files laterOptions directory) later = (.ok laterNode, final) →
        node.digest = laterNode.digest →
        AlikeOrColliding files options laterOptions directory state later) ∧
      ∀ node digest after read final,
        perform (aggregate files options directory) state = (.ok node, after) →
        perform (readManifest files directory) later = (.ok (some node.digest), read) →
        perform (verify files laterOptions directory) later = (.ok (.matching digest), final) →
        AlikeOrColliding files options laterOptions directory state read := by
  constructor
  · intro node laterNode after final done again same
    exact alike_of_digests done again same
  · intro node digest after read final aggregated manifest verified
    obtain ⟨between, done⟩ := digested_of_aggregated aggregated
    obtain ⟨expected, found, laterNode, readAgain, again, compared⟩ :=
      digested_of_verified verified
    obtain ⟨expectedSame, rfl⟩ := Prod.mk.inj (manifest.symm.trans readAgain)
    have agreed := digest_of_matching compared.symm
    rw [← Except.ok.inj expectedSame, Option.some.injEq] at agreed
    exact alike_of_digests done again agreed

end contents

/-! Trees -/

open Memory

theorem perform_contents_of (path : Path) {size : Nat} (room : 0 < size) (tree : Tree) :
    perform (contentsOf files path size) tree =
      ((wholeFile tree path).mapError (.read path), tree) := by
  rw [contentsOf, perform_reading_tree, wholeFile]
  cases tree.openReader path with
  | error error => rfl
  | ok reader =>
      cases reader with
      | failing => rfl
      | rest contents =>
          obtain ⟨after, result, final⟩ := Source.collect_delivers (reader_delivers tree) room
            (contents.length + 1) [] contents (.rest contents, tree) rfl (Nat.le_succ _)
          unfold restAhead at final
          rw [final] at result
          simp only [Reader.patience, perform_adapt, result]
          rfl

/-! Two directories with one digest -/

def chunkTree : Tree :=
  (Tree.empty.addFile (.ofText "/node/0.data") [1, 2]).addFile (.ofText "/node/0.index") [3]

/-- The same chunk made the other way round, with the manifest that it had and a hidden file. -/
def copiedTree : Tree :=
  (((Tree.empty.addFile (.ofText "/node/0.index") [3]).addFile
    (.ofText "/node/0.data") [1, 2]).addFile
      (.ofText "/node/checkSum.txt") (Md5.digest (Md5.joined [[1, 2], [3]]))).addFile
        (.ofText "/node/.note") [4]

def chunkNode : NodeDigest :=
  .ofContents (.ofText "/node") [(.ofText "/node/0.data", [1, 2]), (.ofText "/node/0.index", [3])]

theorem chunk_tree_digest : nodeDigest .listing chunkTree (.ofText "/node") = .ok chunkNode := by
  rw [node_digest_listing]
  decide +kernel

theorem copied_tree_digest : nodeDigest .listing copiedTree (.ofText "/node") = .ok chunkNode := by
  rw [node_digest_listing]
  decide +kernel

theorem copied_tree_manifest :
    manifestOf copiedTree (.ofText "/node") = .ok (some chunkNode.digest) := by
  decide +kernel

theorem copied_node_alike :
    (∃ node laterNode after final,
        perform (ofDirectory files {} (.ofText "/node")) chunkTree = (.ok node, after) ∧
        perform (ofDirectory files {} (.ofText "/node")) copiedTree = (.ok laterNode, final) ∧
        node.digest = laterNode.digest ∧
        AlikeOrColliding files {} {} (.ofText "/node") chunkTree copiedTree) ∧
      ∃ node digest after read final,
        perform (aggregate files {} (.ofText "/node")) chunkTree = (.ok node, after) ∧
        perform (readManifest files (.ofText "/node")) copiedTree = (.ok (some node.digest), read) ∧
        perform (verify files {} (.ofText "/node")) copiedTree = (.ok (.matching digest), final) ∧
        AlikeOrColliding files {} {} (.ofText "/node") chunkTree read := by
  have detected := tampering_detected files {} {} (.ofText "/node") chunkTree copiedTree
  have digested : perform (ofDirectory files {} (.ofText "/node")) chunkTree =
      (.ok chunkNode, chunkTree) := by rw [perform_of_directory, ← chunk_tree_digest]
  have again : perform (ofDirectory files {} (.ofText "/node")) copiedTree =
      (.ok chunkNode, copiedTree) := by rw [perform_of_directory, ← copied_tree_digest]
  have created : (chunkTree.create (manifestPath (.ofText "/node"))).isOk = true := by
    decide +kernel
  obtain ⟨made, isMade⟩ := exists_ok created
  have aggregated := @aggregate_succeeds {} _ _ _ _ chunk_tree_digest isMade
  have manifest : perform (readManifest files (.ofText "/node")) copiedTree =
      (.ok (some chunkNode.digest), copiedTree) := by
    rw [perform_read_manifest, copied_tree_manifest]
  have verified : perform (verify files {} (.ofText "/node")) copiedTree =
      (.ok (.matching chunkNode.digest), copiedTree) := by
    rw [perform_verify, verification, copied_tree_manifest]
    simp [copied_tree_digest, Verification.compare, bind, Except.bind]
  exact ⟨⟨_, _, _, _, digested, again, rfl, detected.1 _ _ _ _ digested again rfl⟩,
    ⟨_, _, _, _, _, aggregated, manifest, verified,
      detected.2 _ _ _ _ _ aggregated manifest verified⟩⟩

end Checksum

end ChunkStore
