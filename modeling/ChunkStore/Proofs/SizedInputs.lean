import ChunkStore.Proofs.InputWalk
import ChunkStore.Proofs.SizeScan

/-!
What is sized and what is mapped. Where no name below an input path is ignored, a scan counts the
files that a search for input files finds, one by one and byte by byte. The only exception is an
input path that is itself a file with an ignored name: it is counted, and it is not found.
-/

namespace ChunkStore

set_option autoImplicit false

open Stateful Memory

namespace Memory.Tree

/-- The length of the file at a path, none if no file is there. -/
def lengthAt (tree : Tree) (path : Path) : Nat := ((tree.contents? path).getD []).length

theorem length_at_entry {tree : Tree} (distinct : tree.Distinct) {entry : Entry}
    (member : entry ∈ tree.entries) : tree.lengthAt entry.path = entry.status.length := by
  have found := node_of_mem distinct member (Path.same_refl _)
  rw [lengthAt, contents?, found, Entry.status]
  cases entry.node <;> rfl

theorem is_file_of_contents {tree : Tree} {path : Path} :
    tree.isFile path = true ↔ ∃ contents, tree.contents? path = some contents :=
  Option.isSome_iff_exists

theorem file_or_open {tree : Tree} {path : Path} (present : tree.isPresent path = true) :
    (∃ contents, tree.contents? path = some contents) ∨ tree.IsOpen path := by
  rcases Bool.or_eq_true_iff.mp present with isRoot | isThere
  · exact Or.inr (Or.inr isRoot)
  · rcases Option.isSome_iff_exists.mp isThere with ⟨node, found⟩
    cases node with
    | directory => exact Or.inr (Or.inl found)
    | file contents => exact Or.inl ⟨contents, contents_of_node.mpr found⟩

theorem no_file_of_open {tree : Tree} (formed : tree.WellFormed) {path : Path}
    (isOpen : tree.IsOpen path) : tree.isFile path = false := by
  rw [isFile, contents?]
  rcases isOpen with directory | isRoot
  · rw [directory]
    rfl
  · rw [formed.node_of_root isRoot]
    rfl

end Memory.Tree

namespace Local

open Memory.Tree

/-! Where nothing is ignored -/

def NothingIgnored (tree : Tree) (path : Path) : Prop :=
  ∀ entry ∈ tree.below path, isIgnored entry.status = false

instance instDecidableNothingIgnored (tree : Tree) (path : Path) :
    Decidable (NothingIgnored tree path) :=
  inferInstanceAs (Decidable (∀ entry ∈ tree.below path, isIgnored entry.status = false))

theorem NothingIgnored.directory {tree : Tree} {path : Path} {directory : Entry}
    (plain : NothingIgnored tree path) (formed : tree.WellFormed)
    (isChild : directory ∈ tree.childDirectories path) : NothingIgnored tree directory.path := by
  intro entry inside
  apply plain entry
  rw [formed.mem_below_iff]
  exact Or.inr ⟨directory, isChild, inside⟩

theorem visible_of_nothing_ignored {tree : Tree} (formed : tree.WellFormed) (depth : Nat)
    {path : Path} (plain : NothingIgnored tree path) {entry : Entry}
    (inside : entry ∈ tree.below path)
    (near : entry.path.parts.length ≤ depth + path.parts.length) :
    entry.path.isVisible path = true := by
  induction depth generalizing path with
  | zero =>
      have longer := Path.length_of_below (mem_below.mp inside).2
      omega
  | succ depth induction =>
      rcases formed.mem_below_iff.mp inside with isChild | ⟨directory, isDirectory, deeper⟩
      · rw [visible_child (mem_child_entries.mp isChild).2, isInput, plain entry inside]
        rfl
      · rcases mem_child_directories.mp isDirectory with ⟨isEntry, child, _⟩
        have seen := induction (plain.directory formed isDirectory) deeper
          (by rw [Path.length_child child]; omega)
        have isHere := mem_below.mpr ⟨isEntry, Path.below_of_child child⟩
        rw [visible_below child (mem_below.mp deeper).2, seen, isInput, plain directory isHere]
        rfl

theorem visible_files_all {tree : Tree} (formed : tree.WellFormed) {path : Path}
    (plain : NothingIgnored tree path) : visibleFiles tree path = tree.filesBelow path := by
  apply List.filter_congr
  intro entry inside
  rw [visible_of_nothing_ignored formed entry.path.parts.length plain inside (Nat.le_add_right _ _),
    Bool.and_true]

/-! Both at once -/

/-- A search at a file finds it unless its name is ignored. -/
theorem inputs_at_file {tree : Tree} {path : Path} {contents : Bytes}
    (found : tree.contents? path = some contents) :
    inputsAt tree path = if isIgnoredName path.name then [] else [path] := by
  have listed : tree.listing path = [.file path contents.length] := by
    apply listing_of_ok
    rw [list, contents_of_node.mp found]
  have kept : isInput (.file path contents.length) = !isIgnoredName path.name := rfl
  rw [inputs_at_eq, ownInputs, directoriesAt, listed, List.filter_cons, kept]
  cases isIgnoredName path.name <;> rfl

/-- A scan counts as many files of an input path as a search finds there, with as many bytes, except
where the input path is itself a file with an ignored name. -/
theorem mapped_as_sized {tree : Tree} (formed : tree.WellFormed) {path : Path}
    (present : tree.isPresent path = true) (plain : NothingIgnored tree path) :
    ∃ totals inputs,
      perform (Scan.totals files path) tree = (.ok totals, tree) ∧
      perform (inputFiles files path) tree = (.ok inputs, tree) ∧
      (inputs.length = totals.files ∧ (inputs.map tree.lengthAt).sum = totals.bytes ↔
        ¬(tree.isFile path = true ∧ isIgnoredName path.name = true)) := by
  rcases file_or_open present with ⟨contents, found⟩ | isOpen
  · have counted := Scan.totals_of_file (fun _ => none) formed.distinct found rfl
    have searched := perform_input_files formed.distinct path
    rw [list, contents_of_node.mp found] at searched
    refine ⟨_, _, counted, searched, ?_⟩
    rw [inputs_at_file found, is_file_of_contents]
    cases ignored : isIgnoredName path.name with
    | true => simp [found]
    | false => simp [lengthAt, found]
  · have searched := perform_input_files formed.distinct path
    rw [formed.list_open isOpen] at searched
    have same := inputs_at_perm formed isOpen
    rw [visible_files_all formed plain] at same
    rcases Scan.totals_of_open (fun _ => none) formed isOpen rfl with
      ⟨_, counted⟩ | ⟨_, _, _, refused, _⟩
    · refine ⟨_, _, counted, searched, ?_⟩
      rw [no_file_of_open formed isOpen]
      have lengths : ((inputsAt tree path).map tree.lengthAt).sum =
          ((tree.filesBelow path).map (·.status.length)).sum := by
        rw [(same.map tree.lengthAt).sum_eq, List.map_map]
        congr 1
        apply List.map_congr_left
        intro entry member
        exact length_at_entry formed.distinct (mem_below.mp (List.mem_filter.mp member).1).1
      have number := same.length_eq
      rw [List.length_map] at number
      simp only [Bool.false_eq_true, false_and, not_false_eq_true, iff_true]
      exact ⟨number, lengths⟩
    · exact absurd refused (by simp)

/-- A directory with one more below it and one that is empty. -/
theorem nested_input_mapped :
    ∃ totals inputs,
      perform (Scan.totals files (.ofText "/in")) Scan.nestedInput =
        (.ok totals, Scan.nestedInput) ∧
      perform (inputFiles files (.ofText "/in")) Scan.nestedInput =
        (.ok inputs, Scan.nestedInput) ∧
      inputs.length = totals.files ∧
      (inputs.map Scan.nestedInput.lengthAt).sum = totals.bytes := by
  have plain : NothingIgnored Scan.nestedInput (.ofText "/in") := by decide +kernel
  rcases mapped_as_sized Scan.nested_input_formed (by decide +kernel) plain with
    ⟨totals, inputs, counted, searched, agree⟩
  exact ⟨totals, inputs, counted, searched, agree.mpr (by decide +kernel)⟩

def underscoredInput : Tree := Tree.empty.addFile (.ofText "/in/_part-0") [107, 9, 118, 10]

/-- The file is sized as an input of four bytes, and no file is mapped. -/
theorem underscored_input_missed :
    underscoredInput.WellFormed ∧
      underscoredInput.isPresent (.ofText "/in/_part-0") = true ∧
      NothingIgnored underscoredInput (.ofText "/in/_part-0") ∧
      perform (Scan.totals files (.ofText "/in/_part-0")) underscoredInput =
        (.ok ⟨0, 1, 4, 0⟩, underscoredInput) ∧
      perform (inputFiles files (.ofText "/in/_part-0")) underscoredInput =
        (.ok [], underscoredInput) := by
  have reachable : underscoredInput.Reachable := ⟨[], .next .start (.addFile _ _ _)⟩
  have formed : underscoredInput.WellFormed :=
    .of_reachable reachable (by decide +kernel) (by decide +kernel)
  exact ⟨formed, by decide +kernel, by decide +kernel, by decide +kernel, by decide +kernel⟩

end Local

end ChunkStore
