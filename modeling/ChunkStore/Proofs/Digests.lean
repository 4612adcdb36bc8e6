import ChunkStore.Checksum.Manifest
import ChunkStore.Proofs.MemoryFiles
import ChunkStore.Proofs.Writing

/-!
Digests and manifests on a tree. What a digest is depends on the tree and on the order of the
files, not on how they are read: each call of the checksum functions is a function of the tree.
-/

namespace ChunkStore

set_option autoImplicit false

open Stateful Memory

/-! Reading files whole -/

theorem Md5.total_update (hasher : Md5.Hasher) (bytes : Bytes) :
    (hasher.update bytes).total = hasher.total + bytes.length := by
  induction bytes generalizing hasher with
  | nil => rfl
  | cons byte rest induction =>
      have pushed : (hasher.push byte).total = hasher.total + 1 := by
        rw [Md5.Hasher.push]
        split <;> rfl
      rw [Md5.Hasher.update, List.foldl_cons, ← Md5.Hasher.update, induction, pushed,
        List.length_cons]
      omega

theorem Source.collect_delivers {m : Type → Type} [Monad m] {σ : Type} [Stateful m σ]
    {source : Source m} {ahead : Bytes → σ → Prop} (delivers : source.Delivers ahead)
    {size : Nat} (room : 0 < size) (patience : Nat) (got bytes : Bytes) (state : σ)
    (holds : ahead bytes state) (patient : bytes.length ≤ patience) :
    ∃ after, perform (Source.collect source size patience got) state =
      (.ok (got.reverse ++ bytes), after) ∧ ahead [] after := by
  induction patience generalizing got bytes state with
  | zero =>
      have none : bytes = [] := List.length_eq_zero_iff.mp (by omega)
      subst none
      exact ⟨state, by simp [Source.collect], holds⟩
  | succ patience induction =>
      obtain ⟨piece, rest, after, read, split, ready, _, ends⟩ :=
        delivers bytes state size holds room
      rw [Source.collect, perform_bind, perform_outcome, read]
      cases piece with
      | nil =>
          have none := ends rfl
          rw [none, List.nil_append] at split
          refine ⟨after, by simp [none], split ▸ ready⟩
      | cons first others =>
          have shorter := Source.length_behind_piece split (List.cons_ne_nil _ _) patient
          obtain ⟨final, result, done⟩ := induction ((first :: others).reverseAux got) rest after
            ready shorter
          refine ⟨final, ?_, done⟩
          simp only
          rw [result, Source.reverse_reverse_aux, List.append_assoc, ← split]

namespace Checksum

theorem hash_source_delivers {m : Type → Type} [Monad m] {σ : Type} [Stateful m σ]
    {source : Source m} {ahead : Bytes → σ → Prop} (delivers : source.Delivers ahead)
    {size : Nat} (room : 0 < size) (patience : Nat) (hasher : Md5.Hasher) (bytes : Bytes)
    (state : σ) (holds : ahead bytes state) (patient : bytes.length ≤ patience) :
    ∃ after, perform (hashSource source size patience hasher) state =
      (.ok (hasher.update bytes), after) ∧ ahead [] after := by
  induction patience generalizing hasher bytes state with
  | zero =>
      have none : bytes = [] := List.length_eq_zero_iff.mp (by omega)
      subst none
      exact ⟨state, by simp [hashSource, Md5.update_nil], holds⟩
  | succ patience induction =>
      obtain ⟨piece, rest, after, read, split, ready, _, ends⟩ :=
        delivers bytes state size holds room
      rw [hashSource, perform_bind, perform_outcome, read]
      cases piece with
      | nil =>
          have none := ends rfl
          rw [none, List.nil_append] at split
          refine ⟨after, by simp [none, Md5.update_nil], split ▸ ready⟩
      | cons first others =>
          have shorter := Source.length_behind_piece split (List.cons_ne_nil _ _) patient
          obtain ⟨final, result, done⟩ := induction (hasher.update (first :: others)) rest after
            ready shorter
          refine ⟨final, ?_, done⟩
          simp only
          rw [result, split, Md5.update_append]

/-! Digests -/

def injected : IoError := .other "injected read failure"

/-- The whole contents of a file, unless it cannot be opened or read. -/
def wholeFile (tree : Tree) (path : Path) : Except IoError Bytes :=
  match tree.openReader path with
  | .error error => .error error
  | .ok .failing => .error injected
  | .ok (.rest contents) => .ok contents

theorem perform_read_whole (path : Path) (tree : Tree) :
    perform (files.readWhole path) tree = (wholeFile tree path, tree) := by
  rw [FileSystem.readWhole, perform_reading_tree, wholeFile]
  cases tree.openReader path with
  | error error => rfl
  | ok reader =>
      cases reader with
      | failing => rfl
      | rest contents =>
          obtain ⟨after, result, final⟩ := Source.collect_delivers (reader_delivers tree)
            (show 0 < 8192 by decide) (contents.length + 1) [] contents (.rest contents, tree) rfl
            (Nat.le_succ _)
          unfold restAhead at final
          rw [final] at result
          simp only [Source.toEnd, Reader.patience, result]
          rfl

def fileDigest (tree : Tree) (path : Path) : Except ChecksumError (Bytes × Nat) :=
  match wholeFile tree path with
  | .error error => .error (.read path error)
  | .ok contents => .ok (Md5.digest contents, contents.length)

theorem perform_of_file (path : Path) {size : Nat} (room : 0 < size) (tree : Tree) :
    perform (ofFile files path size) tree = (fileDigest tree path, tree) := by
  rw [ofFile, perform_reading_tree, fileDigest, wholeFile]
  cases tree.openReader path with
  | error error => rfl
  | ok reader =>
      cases reader with
      | failing => rfl
      | rest contents =>
          obtain ⟨after, result, final⟩ := hash_source_delivers (reader_delivers tree) room
            (contents.length + 1) .initial contents (.rest contents, tree) rfl (Nat.le_succ _)
          unfold restAhead at final
          rw [final] at result
          simp only [Reader.patience, perform_bind, perform_adapt, result, map_error_ok,
            perform_pure]
          rw [Md5.total_update]
          simp [Md5.digest, Md5.Hasher.initial]

def hashedFiles (tree : Tree) :
    List Path → Md5.Hasher × Nat → Except ChecksumError (Md5.Hasher × Nat)
  | [], state => .ok state
  | path :: rest, (hasher, bytes) =>
      match fileDigest tree path with
      | .error error => .error error
      | .ok (digest, length) => hashedFiles tree rest (hasher.update digest, bytes + length)

theorem perform_hash_files {size : Nat} (room : 0 < size) (statuses : List Status)
    (state : Md5.Hasher × Nat) (tree : Tree) :
    perform (hashFiles files size statuses state) tree =
      (hashedFiles tree (statuses.map (·.path)) state, tree) := by
  induction statuses generalizing state with
  | nil => rfl
  | cons status rest induction =>
      obtain ⟨hasher, bytes⟩ := state
      rw [hashFiles, perform_bind, perform_of_file status.path room, List.map_cons, hashedFiles]
      cases fileDigest tree status.path with
      | error error => rfl
      | ok digested =>
          obtain ⟨digest, length⟩ := digested
          exact induction _

def nodeDigest (order : ChecksumOrder) (tree : Tree) (directory : Path) :
    Except ChecksumError NodeDigest :=
  match tree.list directory with
  | .error error => .error (.list directory error)
  | .ok entries =>
      let inputs := (order.inputs manifestName entries).map (·.path)
      (hashedFiles tree inputs (.initial, 0)).map fun (hasher, bytes) =>
        { directory, digest := hasher.finish, files := inputs, bytes }

theorem perform_of_directory (options : ChecksumOptions) (directory : Path) (tree : Tree) :
    perform (ofDirectory files options directory) tree =
      (nodeDigest options.order tree directory, tree) := by
  rw [ofDirectory, perform_bind, perform_adapt, perform_list, nodeDigest]
  cases tree.list directory with
  | error error => rfl
  | ok entries =>
      simp only [map_error_ok]
      rw [perform_bind, perform_hash_files (by omega)]
      cases hashedFiles tree ((options.order.inputs manifestName entries).map (·.path))
        (.initial, 0) <;> rfl

/-! Manifests -/

theorem perform_write_whole (path : Path) (piece : Bytes) (tree : Tree) :
    perform (files.writeWhole path [piece] true) tree =
      match tree.store path piece with
      | .ok after => (.ok (), after)
      | .error error => (.error error, tree) := by
  rw [FileSystem.writeWhole, perform_bind, perform_create, Tree.store]
  cases tree.create path with
  | error error => rfl
  | ok made =>
      have written : perform (files.writePieces [piece]) (Writer.opened path, made) =
          (.ok (), ⟨path, if piece.isEmpty then [] else [piece]⟩, made) := by
        rw [FileSystem.writePieces]
        by_cases empty : piece.isEmpty = true <;> simp only [empty] <;> rfl
      have whole : Writer.written ⟨path, if piece.isEmpty then [] else [piece]⟩ = piece := by
        by_cases empty : piece.isEmpty = true
        · rw [if_pos empty, List.isEmpty_iff.mp empty]
          rfl
        · rw [if_neg empty]
          simp [Writer.written]
      simp only [Except.map, perform_mk, exec_bind, exec_run, exec_pure, exec_close]
      rw [perform_bind_ok written]
      simp only [if_true, perform_flush, Tree.publish]
      rw [whole, Tree.put_put]

theorem perform_aggregate (options : ChecksumOptions) (directory : Path) (tree : Tree) :
    perform (aggregate files options directory) tree =
      match nodeDigest options.order tree directory with
      | .error error => (.error error, tree)
      | .ok node =>
          match tree.store (manifestPath directory) node.digest with
          | .ok after => (.ok node, after)
          | .error error => (.error (.write (manifestPath directory) error), tree) := by
  rw [aggregate, perform_bind, perform_of_directory]
  cases nodeDigest options.order tree directory with
  | error error => rfl
  | ok node =>
      simp only
      rw [perform_bind, perform_adapt, perform_write_whole]
      cases tree.store (manifestPath directory) node.digest <;> rfl

def nodeDirectoriesOf (tree : Tree) (output : Path) : Except ChecksumError (List Path) :=
  match tree.list output with
  | .error error => .error (.list output error)
  | .ok entries => .ok ((entries.filter (·.isDirectory)).map (·.path))

theorem perform_node_directories (output : Path) (tree : Tree) :
    perform (nodeDirectories files output) tree = (nodeDirectoriesOf tree output, tree) := by
  rw [nodeDirectories, perform_bind, perform_adapt, perform_list, nodeDirectoriesOf]
  cases tree.list output <;> rfl

def manifestOf (tree : Tree) (directory : Path) : Except ChecksumError (Option Bytes) :=
  if tree.isPresent (manifestPath directory) then
    ((wholeFile tree (manifestPath directory)).map some).mapError
      (.read (manifestPath directory))
  else .ok none

theorem perform_read_manifest (directory : Path) (tree : Tree) :
    perform (readManifest files directory) tree = (manifestOf tree directory, tree) := by
  rw [readManifest, perform_bind, perform_adapt, perform_exists, manifestOf]
  simp only [map_error_ok]
  by_cases present : tree.isPresent (manifestPath directory) = true
  · rw [if_pos present, if_pos present, perform_bind, perform_adapt, perform_read_whole]
    cases wholeFile tree (manifestPath directory) <;> rfl
  · rw [if_neg present, if_neg present]
    rfl

def verification (order : ChecksumOrder) (tree : Tree) (directory : Path) :
    Except ChecksumError Verification := do
  let expected ← manifestOf tree directory
  let node ← nodeDigest order tree directory
  .ok (.compare expected node.digest)

theorem perform_verify (options : ChecksumOptions) (directory : Path) (tree : Tree) :
    perform (verify files options directory) tree =
      (verification options.order tree directory, tree) := by
  rw [verify, perform_bind, perform_read_manifest, verification]
  cases manifestOf tree directory with
  | error error => rfl
  | ok expected =>
      simp only
      rw [perform_bind, perform_of_directory]
      cases nodeDigest options.order tree directory <;> rfl

end Checksum

end ChunkStore
