import ChunkStore.Proofs.RootedRuns
import Mathlib.Data.List.Nodup

/-!
What lies below a path. In a tree that is well formed everything below a path is one of its
children or lies below one of its child directories, and only one of these holds, once. A fold over
a whole subtree is so told by what it gives for the children and for each child directory.
-/

namespace ChunkStore

set_option autoImplicit false

namespace Path

/-! Proper ancestors -/

/-- Whether another path is an ancestor of a path and not the path itself. -/
def isBelow (path base : Path) : Bool := path.ancestors.tail.any (·.same base)

theorem below_of_parent {path parent : Path} (found : path.parent? = some parent) (base : Path) :
    path.isBelow base = (parent.same base || parent.isBelow base) := by
  have higher : path.ancestors.tail = parent.ancestors := by
    rw [ancestors_eq path, found]
    rfl
  rcases ancestors_cons parent with ⟨above, written, _⟩
  rw [isBelow, isBelow, higher, written]
  rfl

theorem not_below_of_root {path : Path} (isRoot : path.isRoot = true) (base : Path) :
    path.isBelow base = false := by
  rcases parent_cases path with ⟨none, _⟩ | ⟨_, _, notRoot, _⟩
  · rw [isBelow, ancestors_eq, none]
    rfl
  · rw [isRoot] at notRoot
    exact absurd notRoot (by simp)

theorem above_of_below {path base : Path} (below : path.isBelow base = true) :
    ∃ above ∈ path.ancestors, above.parts = base.parts ∧
      above.parts.length < path.parts.length := by
  rcases ancestors_cons path with ⟨higher, written, shorter⟩
  rw [isBelow, written, List.tail_cons, List.any_eq_true] at below
  rcases below with ⟨above, member, same⟩
  have listed : above ∈ path.ancestors := written ▸ List.mem_cons_of_mem path member
  exact ⟨above, listed, (same_iff_parts _ _).mp same, shorter above member⟩

theorem prefix_of_below {path base : Path} (below : path.isBelow base = true) :
    base.parts <+: path.parts := by
  rcases above_of_below below with ⟨above, listed, same, _⟩
  rw [← same]
  exact ancestor_is_beginning path above listed

theorem length_of_below {path base : Path} (below : path.isBelow base = true) :
    base.parts.length < path.parts.length := by
  rcases above_of_below below with ⟨above, _, same, shorter⟩
  rw [← same]
  exact shorter

theorem below_congr {left right base : Path} (same : left.same right = true)
    (below : left.isBelow base = true) : right.isBelow base = true := by
  induction left using parent_induction generalizing right with
  | root left isRoot _ =>
      rw [not_below_of_root isRoot] at below
      exact absurd below (by simp)
  | step left parent found _ _ induction =>
      rcases parent_congr same found with ⟨above, there, alike⟩
      rw [below_of_parent found, Bool.or_eq_true] at below
      rw [below_of_parent there, Bool.or_eq_true]
      rcases below with here | higher
      · exact Or.inl (same_trans alike here)
      · exact Or.inr (induction (same_comm above parent ▸ alike) higher)

theorem below_of_child {path base : Path} (child : path.isChildOf base = true) :
    path.isBelow base = true := by
  rcases parent_of_child child with ⟨parent, found, same⟩
  rw [below_of_parent found, same, Bool.true_or]

theorem below_trans {path middle base : Path} (lower : path.isBelow middle = true)
    (upper : middle.isBelow base = true) : path.isBelow base = true := by
  induction path using parent_induction with
  | root path isRoot _ =>
      rw [not_below_of_root isRoot] at lower
      exact absurd lower (by simp)
  | step path parent found _ _ induction =>
      rw [below_of_parent found, Bool.or_eq_true] at lower
      rw [below_of_parent found, Bool.or_eq_true]
      rcases lower with here | higher
      · exact Or.inr (below_congr (same_comm parent middle ▸ here) upper)
      · exact Or.inr (induction higher)

end Path

namespace Memory.Tree

/-! Trees that are well formed -/

/-- A tree as the operations of the file system keep it, in which every entry has a parent and that
is a root or a directory that is there. -/
structure WellFormed (tree : Tree) : Prop where
  distinct : tree.Distinct
  rooted : tree.Rooted
  inner : ∀ entry ∈ tree.entries, entry.path.isRoot = false

theorem WellFormed.of_reachable {tree : Tree} (reachable : tree.Reachable) (rooted : tree.Rooted)
    (inner : ∀ entry ∈ tree.entries, entry.path.isRoot = false) : tree.WellFormed :=
  ⟨reachable.distinct, rooted, inner⟩

theorem WellFormed.nodup {tree : Tree} (formed : tree.WellFormed) : tree.entries.Nodup :=
  List.Nodup.of_map _ formed.distinct

theorem WellFormed.node_of_root {tree : Tree} (formed : tree.WellFormed) {path : Path}
    (isRoot : path.isRoot = true) : tree.node? path = none := by
  rw [find_none_iff]
  intro entry member
  rw [Bool.eq_false_iff]
  intro same
  have inner := formed.inner entry member
  rw [Path.is_root_congr same, isRoot] at inner
  exact absurd inner (by simp)

/-- A directory or a root, which lists its children. -/
def IsOpen (tree : Tree) (path : Path) : Prop :=
  tree.node? path = some .directory ∨ path.isRoot = true

theorem WellFormed.list_open {tree : Tree} (formed : tree.WellFormed) {path : Path}
    (isOpen : tree.IsOpen path) : tree.list path = .ok (tree.children path) := by
  rcases isOpen with directory | isRoot
  · exact list_directory directory
  · rw [list, formed.node_of_root isRoot]
    exact if_pos isRoot

/-! Subtrees -/

def below (tree : Tree) (path : Path) : List Entry :=
  tree.entries.filter fun entry => entry.path.isBelow path

def childDirectories (tree : Tree) (path : Path) : List Entry :=
  (tree.childEntries path).filter (·.node.isDirectory)

theorem mem_below {tree : Tree} {path : Path} {entry : Entry} :
    entry ∈ tree.below path ↔ entry ∈ tree.entries ∧ entry.path.isBelow path = true :=
  List.mem_filter

theorem mem_child_entries {tree : Tree} {path : Path} {entry : Entry} :
    entry ∈ tree.childEntries path ↔ entry ∈ tree.entries ∧ entry.path.isChildOf path = true :=
  List.mem_filter

theorem node_of_is_directory {node : Node} (directory : node.isDirectory = true) :
    node = .directory := by
  cases node with
  | directory => rfl
  | file contents => exact absurd directory (by simp [Node.isDirectory])

theorem mem_child_directories {tree : Tree} {path : Path} {entry : Entry} :
    entry ∈ tree.childDirectories path ↔
      entry ∈ tree.entries ∧ entry.path.isChildOf path = true ∧ entry.node = .directory := by
  rw [childDirectories, List.mem_filter, mem_child_entries, and_assoc]
  constructor
  · rintro ⟨member, child, directory⟩
    exact ⟨member, child, node_of_is_directory directory⟩
  · rintro ⟨member, child, directory⟩
    exact ⟨member, child, by rw [directory]; rfl⟩

theorem WellFormed.open_of_member {tree : Tree} (formed : tree.WellFormed) {entry : Entry}
    (member : entry ∈ tree.entries) (directory : entry.node = .directory) :
    tree.IsOpen entry.path :=
  Or.inl (directory ▸ node_of_mem formed.distinct member (Path.same_refl _))

theorem WellFormed.exists_directory {tree : Tree} (formed : tree.WellFormed) {path base : Path}
    (present : (tree.node? path).isSome) (below : path.isBelow base = true)
    (deeper : path.isChildOf base = false) :
    ∃ directory ∈ tree.childDirectories base, path.isBelow directory.path = true := by
  induction path using Path.parent_induction with
  | root path isRoot _ =>
      rw [Path.not_below_of_root isRoot] at below
      exact absurd below (by simp)
  | step path parent found _ _ induction =>
      have room := (rooted_iff tree).mp formed.rooted path present parent found
      rw [Path.below_of_parent found, Bool.or_eq_true] at below
      rcases below with here | higher
      · rw [← Path.is_child_congr here, Path.is_child_of_parent found] at deeper
        exact absurd deeper (by simp)
      · have isThere : tree.node? parent = some .directory := by
          rcases room with isRoot | isThere
          · rw [Path.not_below_of_root isRoot] at higher
            exact absurd higher (by simp)
          · exact isThere
        cases child : parent.isChildOf base with
        | true =>
            rw [node?, Option.map_eq_some_iff] at isThere
            rcases isThere with ⟨directory, isFound, isDirectory⟩
            rcases found_same isFound with ⟨member, same⟩
            refine ⟨directory, mem_child_directories.mpr ⟨member, ?_, isDirectory⟩, ?_⟩
            · rw [is_child_of_same same]
              exact child
            · rw [Path.below_of_parent found, Path.same_comm, same, Bool.true_or]
        | false =>
            rcases induction (by rw [isThere]; rfl) higher child with ⟨directory, member, inside⟩
            refine ⟨directory, member, ?_⟩
            rw [Path.below_of_parent found, inside, Bool.or_true]

/-- What is below a path is a child or is below a child directory. -/
theorem WellFormed.mem_below_iff {tree : Tree} (formed : tree.WellFormed) {path : Path}
    {entry : Entry} :
    entry ∈ tree.below path ↔
      entry ∈ tree.childEntries path ∨
        ∃ directory ∈ tree.childDirectories path, entry ∈ tree.below directory.path := by
  constructor
  · intro inside
    rcases mem_below.mp inside with ⟨member, below⟩
    cases child : entry.path.isChildOf path with
    | true => exact Or.inl (mem_child_entries.mpr ⟨member, child⟩)
    | false =>
        have present := present_of_place (List.mem_map_of_mem member)
        rcases formed.exists_directory present below child with ⟨directory, isDirectory, deeper⟩
        exact Or.inr ⟨directory, isDirectory, mem_below.mpr ⟨member, deeper⟩⟩
  · rintro (isChild | ⟨directory, isDirectory, inside⟩)
    · rcases mem_child_entries.mp isChild with ⟨member, child⟩
      exact mem_below.mpr ⟨member, Path.below_of_child child⟩
    · rcases mem_below.mp inside with ⟨member, deeper⟩
      have upper := Path.below_of_child (mem_child_directories.mp isDirectory).2.1
      exact mem_below.mpr ⟨member, Path.below_trans deeper upper⟩

theorem child_of_below {base left right path : Path} (leftChild : left.isChildOf base = true)
    (rightChild : right.isChildOf base = true) (leftBelow : path.isBelow left = true)
    (rightBelow : path.isBelow right = true) : left.parts = right.parts := by
  have length : left.parts.length = right.parts.length := by
    rw [Path.length_child leftChild, Path.length_child rightChild]
  have beginning := List.prefix_of_prefix_length_le (Path.prefix_of_below leftBelow)
    (Path.prefix_of_below rightBelow) length.le
  exact beginning.eq_of_length length

theorem WellFormed.deeper_nodup {tree : Tree} (formed : tree.WellFormed) (path : Path) :
    ((tree.childDirectories path).flatMap fun directory => tree.below directory.path).Nodup := by
  apply List.nodup_flatMap.mpr
  constructor
  · intro directory _
    exact formed.nodup.filter _
  · have apart : ((tree.childDirectories path).map (·.path.parts)).Nodup :=
      formed.distinct.sublist ((List.filter_sublist.trans List.filter_sublist).map _)
    apply (List.pairwise_map.mp apart).imp_of_mem
    intro left right leftMember rightMember different entry inLeft inRight
    exact different (child_of_below (mem_child_directories.mp leftMember).2.1
      (mem_child_directories.mp rightMember).2.1 (mem_below.mp inLeft).2 (mem_below.mp inRight).2)

/-- Everything below a path is a child or lies below one child directory. -/
theorem WellFormed.below_perm {tree : Tree} (formed : tree.WellFormed) (path : Path) :
    (tree.below path).Perm (tree.childEntries path ++
      (tree.childDirectories path).flatMap fun directory => tree.below directory.path) := by
  have nodup : (tree.childEntries path ++ (tree.childDirectories path).flatMap fun directory =>
      tree.below directory.path).Nodup := by
    apply List.Nodup.append (formed.nodup.filter _) (formed.deeper_nodup path)
    intro entry isChild isDeeper
    rcases List.mem_flatMap.mp isDeeper with ⟨directory, isDirectory, inside⟩
    have shallow := Path.length_child (mem_child_entries.mp isChild).2
    have middle := Path.length_child (mem_child_directories.mp isDirectory).2.1
    have deep := Path.length_of_below (mem_below.mp inside).2
    omega
  apply (List.perm_ext_iff_of_nodup (formed.nodup.filter _) nodup).mpr
  intro entry
  rw [List.mem_append, List.mem_flatMap]
  exact formed.mem_below_iff

end Memory.Tree

end ChunkStore
