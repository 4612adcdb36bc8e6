import ChunkStore.Proofs.Digests
import ChunkStore.Proofs.Mapping

/-!
Mapping files. A file whose reader delivers its contents is mapped line by line; so is every file
in memory that can be read, and mapping several of them is mapping one after the other. None of it
changes anything.
-/

namespace ChunkStore

set_option autoImplicit false

open Stateful

namespace FileSystem

variable {m : Type → Type} [Monad m] {Reader Writer σ : Type} [Stateful m σ]

/-- To open a path gives a reader that delivers some contents and has patience enough for them. -/
def Delivers (files : FileSystem m Reader Writer) (path : Path) (contents : Bytes) (state : σ) :
    Prop :=
  ∃ (ahead : Bytes → Reader × σ → Prop) (reader : Reader) (opened : σ),
    Source.Delivers files.read ahead ∧
      perform (files.openReader path) state = (.ok reader, opened) ∧
      ahead contents (reader, opened) ∧ contents.length ≤ files.patience reader

end FileSystem

namespace Local

section lines

variable {m : Type → Type} [Monad m] {σ : Type} [Stateful m σ] {source : Source m}

/-- Without room in its buffer a source of lines seems to be at its end at once. -/
theorem map_lines_without_room (job : JobSpec) (path : Path) (noRoom : job.bufferSize = 0)
    {state after : σ} (read : perform (source 0) state = (.ok [], after))
    (patience steps : Nat) (mapped : Mapped) :
    (perform (mapLines job path source (patience + 1) (steps + 1) 1 mapped) ([], state)).1 =
      .ok mapped := by
  have filled : perform (Source.fill source 0) ([], state) = (.ok [], [], after) := by
    rw [Source.fill, perform_bind, perform_get]
    simp only [perform_bind, perform_below, read, perform_set, perform_pure]
  have ended : perform (source.line job.bufferSize (patience + 1)) ([], state) =
      (.ok [], [], after) := by
    rw [Source.line, Source.collectLine, perform_bind, perform_outcome, noRoom, filled]
    exact perform_pure _ _
  have adapted : perform ((source.line job.bufferSize (patience + 1)).adapt EngineError.io)
      ([], state) = (.ok [], [], after) := by
    rw [perform_adapt, ended, map_error_ok]
  rw [mapLines, perform_bind_ok adapted, if_pos List.isEmpty_nil, perform_pure]

end lines

theorem map_file_delivers {m : Type → Type} [Monad m] {Reader Writer σ : Type} [Stateful m σ]
    {files : FileSystem m Reader Writer} {path : Path} {contents : Bytes} {state : σ}
    (delivers : files.Delivers path contents state) {job : JobSpec} (room : 0 < job.bufferSize)
    (before : Mapped) :
    (perform (mapFile files job path before) state).1 =
      inTurn (addLine job path) 1 (contents.splitOn Source.lineFeed) before := by
  rcases delivers with ⟨ahead, reader, opened, delivers, opens, holds, patient⟩
  rw [mapFile, perform_reading, opens]
  simp only [perform_through_buffer]
  exact map_lines_eq delivers room _ _ 1 contents before ([], reader, opened)
    (Source.held_ahead_of_empty holds) (Nat.le_succ_of_le patient) (Nat.le_succ_of_le patient)

open Memory

theorem delivers_of_readable {tree : Tree} {path : Path} {contents : Bytes}
    (readable : tree.Readable path contents) : files.Delivers path contents tree := by
  refine ⟨restAhead tree, .rest contents, tree, reader_delivers tree, ?_, rfl, Nat.le_refl _⟩
  rw [perform_open, Tree.open_readable readable]

/-- The lines that are read of a file. Through a buffer without room there are none. -/
def linesRead (job : JobSpec) (contents : Bytes) : List Bytes :=
  if job.bufferSize = 0 then [] else contents.splitOn Source.lineFeed

def addLinesOf (job : JobSpec) (tree : Tree) (path : Path) (mapped : Mapped) :
    Except EngineError Mapped :=
  match Checksum.wholeFile tree path with
  | .error error => .error (.io error)
  | .ok contents => inTurn (addLine job path) 1 (linesRead job contents) mapped

/-- To map a file in memory is to add its lines in turn, and leaves the tree as it is. -/
theorem perform_map_file (job : JobSpec) (path : Path) (mapped : Mapped) (tree : Tree) :
    perform (mapFile files job path mapped) tree = (addLinesOf job tree path mapped, tree) := by
  rw [tree_of_keeps (fun inv => keeps_map_file inv job path mapped) tree]
  apply congrArg (·, tree)
  rw [addLinesOf, Checksum.wholeFile]
  rcases tree.open_cases path with ⟨error, refused⟩ | failing | ⟨contents, opened, readable⟩
  · rw [mapFile, perform_reading_tree, refused]
  · rw [mapFile, perform_reading_tree, failing]
    simp only [perform_through_buffer]
    exact map_lines_failing job path 0 0 1 mapped tree
  · rw [opened]
    simp only [linesRead]
    by_cases noRoom : job.bufferSize = 0
    · rw [if_pos noRoom, mapFile, perform_reading_tree, opened]
      simp only [perform_through_buffer]
      exact map_lines_without_room job path noRoom rfl contents.length contents.length mapped
    · rw [if_neg noRoom]
      exact map_file_delivers (delivers_of_readable readable) (Nat.pos_of_ne_zero noRoom) mapped

theorem perform_map_files (job : JobSpec) (paths : List Path) (number : Nat) (mapped : Mapped)
    (tree : Tree) :
    perform (mapFiles files job paths mapped) tree =
      (inTurn (fun _ => addLinesOf job tree) number paths mapped, tree) := by
  induction paths generalizing number mapped with
  | nil => rfl
  | cons path rest induction =>
      rw [mapFiles, perform_bind, perform_map_file, inTurn]
      cases addLinesOf job tree path mapped with
      | error error => rfl
      | ok more => exact induction (number + 1) more

end Local

end ChunkStore
