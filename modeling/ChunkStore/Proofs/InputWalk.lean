import ChunkStore.Proofs.Subtrees
import ChunkStore.Proofs.Traversal

/-!
Which files are mapped. The search for input files works from a stack, and what it finds are the
files of a walk down the tree: those of a directory in the order of its listing and then, one after
the other, those of its directories. Names that start with a dot or an underscore are left out with
everything below them, so the files found are those below a path that no such name hides.
-/

namespace ChunkStore

set_option autoImplicit false

open Stateful Memory

/-! Names that are ignored -/

def isIgnoredName (name : String) : Bool :=
  name.toList.head? == some '.' || name.toList.head? == some '_'

namespace PathPart

def text : PathPart → String
  | root => "/"
  | here => "."
  | up => ".."
  | named name => name

/-- Whether a part is a name that is ignored. A step up or a single dot is no name. -/
def isIgnored : PathPart → Bool
  | named name => isIgnoredName name
  | _ => false

end PathPart

namespace Path

/-- Whether no part of a path after those of another is ignored. -/
def isVisible (path base : Path) : Bool :=
  (path.parts.drop base.parts.length).all fun part => !part.isIgnored

end Path

namespace Local

open Memory.Tree

theorem is_ignored_eq (status : Status) : isIgnored status = isIgnoredName status.name := rfl

theorem ignored_of_parts {status : Status} {parts : List PathPart} {part : PathPart}
    (ends : status.path.parts = parts ++ [part]) : isIgnored status = part.isIgnored := by
  have upward : status.path.upward = part :: parts.reverse := by
    rw [← List.reverse_reverse status.path.upward, ← Path.parts, ends, List.reverse_concat]
  rw [is_ignored_eq, Status.name, Path.name, upward]
  cases part <;> rfl

theorem visible_child {entry : Entry} {base : Path} (child : entry.path.isChildOf base = true) :
    entry.path.isVisible base = isInput entry.status := by
  rcases (Path.is_child_iff _ _).mp child with ⟨part, _, parts⟩
  have ends : entry.status.path.parts = base.parts ++ [part] := by
    rw [path_status]
    exact parts
  rw [isInput, ignored_of_parts ends, Path.isVisible, parts, List.drop_left]
  exact Bool.and_true _

theorem visible_below {path : Path} {directory : Entry} {base : Path}
    (child : directory.path.isChildOf base = true) (below : path.isBelow directory.path = true) :
    path.isVisible base = (isInput directory.status && path.isVisible directory.path) := by
  rcases (Path.is_child_iff _ _).mp child with ⟨part, _, parts⟩
  rcases Path.prefix_of_below below with ⟨rest, shape⟩
  have after : path.parts.drop base.parts.length = part :: rest := by
    rw [← shape, parts, List.append_assoc, List.drop_left]
    rfl
  have deeper : path.parts.drop directory.path.parts.length = rest := by
    rw [← shape, List.drop_left]
  rw [← visible_child child, Path.isVisible, Path.isVisible, Path.isVisible, after, deeper, parts,
    List.drop_left, List.all_cons, List.all_cons, List.all_nil, Bool.and_true]

/-! What a directory holds -/

theorem own_inputs_open {tree : Tree} (formed : tree.WellFormed) {path : Path}
    (isOpen : tree.IsOpen path) :
    ownInputs tree path =
      ((tree.childEntries path).filter fun entry =>
        !entry.node.isDirectory && entry.path.isVisible path).map (·.path) := by
  rw [ownInputs, listing_of_ok (formed.list_open isOpen), children, ← childEntries,
    List.filter_filter, List.filter_map, List.map_map]
  congr 1
  · funext entry
    exact path_status entry
  · apply List.filter_congr
    intro entry member
    rw [visible_child (mem_child_entries.mp member).2, Function.comp_apply]
    rcases entry with ⟨path, _ | contents⟩ <;> rfl

theorem directories_open {tree : Tree} (formed : tree.WellFormed) {path : Path}
    (isOpen : tree.IsOpen path) :
    tree.directoriesAt isInput path =
      ((tree.childDirectories path).filter fun entry => isInput entry.status).map (·.path) := by
  rw [directoriesAt, listing_of_ok (formed.list_open isOpen), children, ← childEntries,
    childDirectories, List.filter_filter, List.filter_filter, List.filter_map, List.map_map]
  congr 1
  · funext entry
    exact path_status entry
  · apply List.filter_congr
    intro entry _
    rw [Function.comp_apply, Bool.and_comm]
    rcases entry with ⟨path, _ | contents⟩ <;> rfl

/-! What a walk finds -/

/-- The files below a path that no ignored name hides, in the order of their creation. -/
def visibleFiles (tree : Tree) (path : Path) : List Entry :=
  (tree.below path).filter fun entry => !entry.node.isDirectory && entry.path.isVisible path

theorem mem_visible_files {tree : Tree} {path : Path} {entry : Entry} :
    entry ∈ visibleFiles tree path ↔
      entry ∈ tree.below path ∧ entry.node.isDirectory = false ∧
        entry.path.isVisible path = true := by
  rw [visibleFiles, List.mem_filter, Bool.and_eq_true, Bool.not_eq_true']

/-- Rows that are left out may as well be kept where they give nothing. -/
theorem perm_flat_map {α β : Type} {rows : List α} {keep : α → Bool} {own whole : α → List β}
    (kept : ∀ row ∈ rows, keep row = true → (own row).Perm (whole row))
    (dropped : ∀ row ∈ rows, keep row = false → whole row = []) :
    ((rows.filter keep).flatMap own).Perm (rows.flatMap whole) := by
  induction rows with
  | nil => exact .nil
  | cons row rest induction =>
      rw [List.forall_mem_cons] at kept dropped
      have later := induction kept.2 dropped.2
      rw [List.flatMap_cons]
      cases isKept : keep row with
      | true =>
          rw [List.filter_cons_of_pos isKept, List.flatMap_cons]
          exact (kept.1 isKept).append later
      | false =>
          rw [List.filter_cons_of_neg (by simp [isKept]), dropped.1 isKept, List.nil_append]
          exact later

/-- Of the files below a child directory, those that are visible from above it are the ones that are
visible from there, or none if the directory itself is ignored. -/
theorem visible_files_child {tree : Tree} {path : Path} {directory : Entry}
    (child : directory.path.isChildOf path = true) :
    (tree.below directory.path).filter (fun entry =>
        !entry.node.isDirectory && entry.path.isVisible path) =
      if isInput directory.status then visibleFiles tree directory.path else [] := by
  cases input : isInput directory.status with
  | true =>
      rw [if_pos rfl, visibleFiles]
      apply List.filter_congr
      intro entry member
      rw [visible_below child (mem_below.mp member).2, input, Bool.true_and]
  | false =>
      rw [if_neg (by simp)]
      apply List.filter_eq_nil_iff.mpr
      intro entry member
      rw [visible_below child (mem_below.mp member).2, input, Bool.false_and, Bool.and_false]
      simp

theorem inputs_within_perm {tree : Tree} (formed : tree.WellFormed) (depth : Nat) {path : Path}
    (isOpen : tree.IsOpen path) (deep : height tree < depth + path.parts.length) :
    (inputsWithin tree depth path).Perm ((visibleFiles tree path).map (·.path)) := by
  induction depth generalizing path with
  | zero =>
      have empty : tree.below path = [] := by
        apply List.eq_nil_iff_forall_not_mem.mpr
        intro entry inside
        have longer := Path.length_of_below (mem_below.mp inside).2
        have bounded := length_le_height (mem_below.mp inside).1
        omega
      rw [visibleFiles, empty]
      exact .nil
  | succ depth induction =>
      have whole := ((formed.below_perm path).filter fun entry =>
        !entry.node.isDirectory && entry.path.isVisible path).map (·.path)
      rw [List.filter_append, List.map_append, ← own_inputs_open formed isOpen,
        List.filter_flatMap, List.map_flatMap] at whole
      rw [inputsWithin, directories_open formed isOpen, List.flatMap_map]
      apply List.Perm.trans _ whole.symm
      apply List.Perm.append_left
      apply perm_flat_map
      · intro directory member input
        rcases mem_child_directories.mp member with ⟨isEntry, child, isDirectory⟩
        rw [visible_files_child child, input, if_pos rfl]
        apply induction (formed.open_of_member isEntry isDirectory)
        rw [Path.length_child child]
        omega
      · intro directory member ignored
        rw [visible_files_child (mem_child_directories.mp member).2.1, ignored]
        rfl

/-- A walk finds every visible file once. -/
theorem inputs_at_perm {tree : Tree} (formed : tree.WellFormed) {path : Path}
    (isOpen : tree.IsOpen path) :
    (inputsAt tree path).Perm ((visibleFiles tree path).map (·.path)) :=
  inputs_within_perm formed (height tree + 1) isOpen (by omega)

/-! Walks -/

/-- Whether something walks down a tree: at a directory it gives the files there that are not
ignored, in the order of the listing, and then what it gives at each of the directories there. -/
def IsWalk (tree : Tree) (walk : Path → List Path) : Prop :=
  ∀ directory, walk directory =
    ownInputs tree directory ++ (tree.directoriesAt isInput directory).flatMap walk

/-- There is one way to walk down a tree, as every step leads to a longer path. -/
theorem walk_unique {tree : Tree} {walk : Path → List Path} (walks : IsWalk tree walk) :
    walk = inputsAt tree := by
  have agree (left : Nat) : ∀ path : Path, height tree < left + path.parts.length →
      walk path = inputsAt tree path := by
    induction left with
    | zero =>
        intro path low
        rw [walks path, inputs_at_eq, directories_shallow isInput (by omega), List.flatMap_nil,
          List.flatMap_nil]
    | succ left induction =>
        intro path low
        rw [walks path, inputs_at_eq]
        congr 1
        apply List.flatMap_congr
        intro directory member
        have lengths := length_directory member
        exact induction directory (by omega)
  funext path
  exact agree (height tree + 1) path (by omega)

/-- There is exactly one walk down a tree. The search for input files at a directory ends, whatever
bound is set on its steps beyond the number of entries, and finds what the walk finds, in that
order. No file is found twice, and those found are the files below the directory for which no part
after the directory is an ignored name. -/
theorem inputs_follow_walk {tree : Tree} (formed : tree.WellFormed) {path : Path}
    (isOpen : tree.IsOpen path) :
    (∃! walk, IsWalk tree walk) ∧
    ∀ walk, IsWalk tree walk →
      (∀ steps, tree.size < steps →
        perform (collectInputs files steps [path] []) tree = (.ok (walk path), tree)) ∧
      perform (inputFiles files path) tree = (.ok (walk path), tree) ∧
      ((walk path).map Path.parts).Nodup ∧
      ∀ input, input ∈ walk path ↔
        ∃ entry ∈ tree.below path, entry.node.isDirectory = false ∧
          entry.path.isVisible path = true ∧ entry.path = input := by
  have listed := formed.list_open isOpen
  constructor
  · refine ⟨inputsAt tree, inputs_at_eq tree, ?_⟩
    intro walk walks
    exact walk_unique walks
  · intro walk walks
    have found := inputs_at_perm formed isOpen
    rw [walk_unique walks]
    refine ⟨?_, ?_, ?_, ?_⟩
    · intro steps enough
      have bounded := tree.count_below_le_size path
      rw [perform_collect_inputs formed.distinct steps [path] [] _ _]
      · simp
      · simp only [stepsFor, List.map_cons, List.map_nil, List.sum_cons, List.sum_nil]
        omega
      · intro only member
        rw [List.mem_singleton.mp member, listed, listing_of_ok listed]
    · rw [perform_input_files formed.distinct, listed]
    · have apart : ((visibleFiles tree path).map (·.path.parts)).Nodup :=
        formed.distinct.sublist ((List.filter_sublist.trans List.filter_sublist).map _)
      rw [(found.map Path.parts).nodup_iff, List.map_map]
      exact apart
    · intro input
      rw [found.mem_iff, List.mem_map]
      simp only [mem_visible_files, and_assoc]

def mixedInput : Tree :=
  (((Tree.empty.addFile (.ofText "/in/d/b") [1]).addFile (.ofText "/in/a") [2]).addFile
    (.ofText "/in/_tmp/c") [3]).addFile (.ofText "/in/d/.e") [4]

theorem mixed_input_walked :
    mixedInput.WellFormed ∧ mixedInput.IsOpen (.ofText "/in") ∧
      perform (inputFiles files (.ofText "/in")) mixedInput =
        (.ok [.ofText "/in/a", .ofText "/in/d/b"], mixedInput) := by
  have reachable : mixedInput.Reachable :=
    ⟨[], .next (.next (.next (.next .start (.addFile _ _ _)) (.addFile _ _ _)) (.addFile _ _ _))
      (.addFile _ _ _)⟩
  have formed : mixedInput.WellFormed :=
    .of_reachable reachable (by decide +kernel) (by decide +kernel)
  have isOpen : mixedInput.IsOpen (.ofText "/in") := Or.inl (by decide +kernel)
  have walked : inputsAt mixedInput (.ofText "/in") = [.ofText "/in/a", .ofText "/in/d/b"] := by
    decide +kernel
  rcases inputs_follow_walk formed isOpen with ⟨_, follows⟩
  rcases follows (inputsAt mixedInput) (inputs_at_eq mixedInput) with ⟨_, found, _⟩
  rw [walked] at found
  exact ⟨formed, isOpen, found⟩

def upwardInput : Tree := Tree.empty.addFile (.ofText "/in/../x") [107, 9, 118, 10]

/-- The file is found, although a part of its path after the directory is written with a dot in
front. So the files found are not those below the directory without a part that is so written. -/
theorem upward_input_found :
    upwardInput.WellFormed ∧ upwardInput.IsOpen (.ofText "/in") ∧
      perform (inputFiles files (.ofText "/in")) upwardInput =
        (.ok [.ofText "/in/../x"], upwardInput) ∧
      ¬∀ input, input ∈ [Path.ofText "/in/../x"] ↔
        ∃ entry ∈ upwardInput.below (.ofText "/in"), entry.node.isDirectory = false ∧
          (∀ part ∈ entry.path.parts.drop (Path.ofText "/in").parts.length,
            isIgnoredName part.text = false) ∧
          entry.path = input := by
  have reachable : upwardInput.Reachable := ⟨[], .next .start (.addFile _ _ _)⟩
  have formed : upwardInput.WellFormed :=
    .of_reachable reachable (by decide +kernel) (by decide +kernel)
  refine ⟨formed, Or.inl (by decide +kernel), by decide +kernel, ?_⟩
  intro precisely
  rcases (precisely (.ofText "/in/../x")).mp List.mem_cons_self with ⟨entry, _, _, plain, same⟩
  have ignored := plain .up (by rw [same]; decide +kernel)
  exact absurd ignored (by decide +kernel)

end Local

end ChunkStore
