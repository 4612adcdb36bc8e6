import ChunkStore.Proofs.Subtrees
import ChunkStore.Proofs.Traversal
import ChunkStore.Scan
import Mathlib.Algebra.BigOperators.Group.List.Basic
import Mathlib.Tactic.Abel

/-!
What a size scan counts. Whatever listings are refused, a scan ends: it counts every entry below a
path exactly once, or it fails for a directory that cannot be listed. Only the path that it starts
from may be absent.

The totals of a scan are a sum over entries, so what waits on the stack is told by what it is to
add, and a visit takes a directory out of that sum and puts its child directories in.
-/

namespace ChunkStore

set_option autoImplicit false

open Stateful Memory

/-! Totals add up -/

attribute [ext] ScanTotals

namespace ScanTotals

instance instAdd : Add ScanTotals where
  add left right :=
    ⟨left.directories + right.directories, left.files + right.files, left.bytes + right.bytes,
      max left.maxDepth right.maxDepth⟩

instance instZero : Zero ScanTotals := ⟨.zero⟩

instance instAddCommMonoid : AddCommMonoid ScanTotals where
  add_assoc first second third := ScanTotals.ext (Nat.add_assoc _ _ _) (Nat.add_assoc _ _ _)
    (Nat.add_assoc _ _ _) (Nat.max_assoc _ _ _)
  zero_add totals := ScanTotals.ext (Nat.zero_add _) (Nat.zero_add _) (Nat.zero_add _)
    (Nat.zero_max _)
  add_zero totals := ScanTotals.ext (Nat.add_zero _) (Nat.add_zero _) (Nat.add_zero _)
    (Nat.max_zero _)
  add_comm left right := ScanTotals.ext (Nat.add_comm _ _) (Nat.add_comm _ _) (Nat.add_comm _ _)
    (Nat.max_comm _ _)
  nsmul := nsmulRec

def ofFile (length : Nat) : ScanTotals := ⟨0, 1, length, 0⟩

def ofDirectory (depth : Nat) : ScanTotals := ⟨1, 0, 0, depth⟩

theorem add_file_eq (totals : ScanTotals) (length : Nat) :
    totals.addFile length = totals + ofFile length := by
  ext
  · rfl
  · rfl
  · rfl
  · exact (Nat.max_zero _).symm

theorem add_directory_eq (totals : ScanTotals) (depth : Nat) :
    totals.addDirectory depth = totals + ofDirectory depth := rfl

end ScanTotals

namespace Memory

/-! Listings that are refused -/

/-- What is listed where the listing of some paths fails. -/
def Tree.listUnless (tree : Tree) (refuse : Path → Option IoError) (path : Path) :
    Except IoError (List Status) :=
  match refuse path with
  | some error => .error error
  | none => tree.list path

def refusing (refuse : Path → Option IoError) : FileSystem (StateM Tree) Reader Writer :=
  { files with list := fun path => asking (·.listUnless refuse path) }

theorem perform_refusing (refuse : Path → Option IoError) (path : Path) (tree : Tree) :
    perform ((refusing refuse).list path) tree = (tree.listUnless refuse path, tree) := rfl

theorem Tree.list_of_unless {tree : Tree} {refuse : Path → Option IoError} {path : Path}
    {statuses : List Status} (listed : tree.listUnless refuse path = .ok statuses) :
    refuse path = none ∧ tree.list path = .ok statuses := by
  rw [listUnless] at listed
  cases refused : refuse path with
  | some error =>
      rw [refused] at listed
      exact absurd listed (by simp)
  | none =>
      rw [refused] at listed
      exact ⟨rfl, listed⟩

theorem Tree.refused_iff {tree : Tree} {refuse : Path → Option IoError} {path : Path}
    {statuses : List Status} (listed : tree.list path = .ok statuses) (error : IoError) :
    tree.listUnless refuse path = .error error ↔ refuse path = some error := by
  rw [listUnless, listed]
  cases refuse path <;> simp

theorem Tree.spared_iff {tree : Tree} {refuse : Path → Option IoError} {path : Path}
    {statuses : List Status} (listed : tree.list path = .ok statuses) :
    (tree.listUnless refuse path).isOk = true ↔ refuse path = none := by
  rw [listUnless, listed]
  cases refuse path <;> simp [Except.isOk, Except.toBool]

/-! What is to be counted -/

def Entry.counted (base : Path) (entry : Entry) : ScanTotals :=
  match entry.node with
  | .directory => .ofDirectory (entry.path.parts.length - base.parts.length)
  | .file contents => .ofFile contents.length

namespace Tree

def filesBelow (tree : Tree) (path : Path) : List Entry :=
  (tree.below path).filter fun entry => !entry.node.isDirectory

def directoriesBelow (tree : Tree) (path : Path) : List Entry :=
  (tree.below path).filter (·.node.isDirectory)

/-- The totals of everything below a directory: the directory itself and those below it, the files
with their lengths, and how many parts the deepest directory has more than the first one. -/
def totalsUnder (tree : Tree) (path : Path) : ScanTotals where
  directories := 1 + (tree.directoriesBelow path).length
  files := (tree.filesBelow path).length
  bytes := ((tree.filesBelow path).map (·.status.length)).sum
  maxDepth := ((tree.directoriesBelow path).map fun entry =>
    entry.path.parts.length - path.parts.length).foldr max 0

theorem sum_counted (base : Path) (entries : List Entry) :
    (entries.map (Entry.counted base)).sum =
      ⟨(entries.filter (·.node.isDirectory)).length,
        (entries.filter fun entry => !entry.node.isDirectory).length,
        ((entries.filter fun entry => !entry.node.isDirectory).map (·.status.length)).sum,
        ((entries.filter (·.node.isDirectory)).map fun entry =>
          entry.path.parts.length - base.parts.length).foldr max 0⟩ := by
  induction entries with
  | nil => rfl
  | cons entry rest induction =>
      rw [List.map_cons, List.sum_cons, induction]
      rcases entry with ⟨path, _ | contents⟩
      · ext
        · exact Nat.add_comm _ _
        · exact Nat.zero_add _
        · exact Nat.zero_add _
        · rfl
      · ext
        · exact Nat.zero_add _
        · exact Nat.add_comm _ _
        · rfl
        · exact Nat.zero_max _

theorem totals_under_eq (tree : Tree) (path : Path) :
    tree.totalsUnder path = .ofDirectory 0 + ((tree.below path).map (Entry.counted path)).sum := by
  rw [sum_counted]
  ext
  · rfl
  · exact (Nat.zero_add _).symm
  · exact (Nat.zero_add _).symm
  · exact (Nat.zero_max _).symm

end Tree

end Memory

namespace Scan

open Memory.Tree

/-! One visit -/

theorem tally_files (base : Path) (entries : List Entry) (totals : ScanTotals) :
    (entries.map Entry.status).foldl (fun totals status =>
      if status.isDirectory then totals else totals.addFile status.length) totals =
        totals + ((entries.filter fun entry => !entry.node.isDirectory).map
          (Entry.counted base)).sum := by
  induction entries generalizing totals with
  | nil => exact (add_zero totals).symm
  | cons entry rest induction =>
      rw [List.map_cons, List.foldl_cons, induction]
      cases node : entry.node with
      | directory =>
          rw [if_pos ((directory_status entry).mpr node), List.filter_cons_of_neg (by simp [node,
            Node.isDirectory])]
      | file contents =>
          have isFile : entry.status = .file entry.path contents.length := by
            rw [Entry.status, node]
          rw [isFile, if_neg (by simp [Status.file]), List.filter_cons_of_pos (by simp [node,
            Node.isDirectory]), List.map_cons, List.sum_cons, ScanTotals.add_file_eq, add_assoc,
            Entry.counted, node]
          rfl

theorem children_no_file (tree : Tree) (path : Path) :
    isFileListing path (tree.children path) = false := by
  unfold isFileListing
  split
  · rename_i status children
    have child := (present_of_child (children ▸ List.mem_cons_self)).2
    have longer := Path.length_child child
    rw [Path.not_same_of_length (by omega), Bool.and_false]
  · rfl

theorem tally_children (tree : Tree) (base : Path) (work : Pending) (totals : ScanTotals) :
    tally work (tree.children work.path) totals =
      totals + .ofDirectory work.depth +
        (((tree.childEntries work.path).filter fun entry => !entry.node.isDirectory).map
          (Entry.counted base)).sum := by
  rw [tally, children_no_file, if_neg (by simp), ScanTotals.add_directory_eq]
  exact tally_files base (tree.childEntries work.path) _

theorem onward_children (tree : Tree) (work : Pending) :
    onward work (tree.children work.path) =
      ((tree.childDirectories work.path).map fun entry =>
        Pending.mk entry.path (work.depth + 1)).reverse := by
  rw [onward, childDirectories, children, List.filter_map, List.map_map]
  congr 2
  · funext entry
    exact congrArg (Pending.mk · (work.depth + 1)) (path_status entry)
  · apply List.filter_congr
    intro entry _
    rw [Bool.eq_iff_iff]
    change entry.status.isDirectory = true ↔ _
    rw [directory_status]
    constructor
    · intro directory
      rw [directory]
      rfl
    · exact node_of_is_directory

/-- What the visit of a directory and of all that is below it is to add. -/
def remaining (tree : Tree) (base : Path) (work : Pending) : ScanTotals :=
  .ofDirectory work.depth + ((tree.below work.path).map (Entry.counted base)).sum

/-- A directory adds itself, its files and what its child directories add. -/
theorem remaining_eq {tree : Tree} (formed : tree.WellFormed) (base : Path) (work : Pending)
    (placed : work.path.parts.length = base.parts.length + work.depth) :
    remaining tree base work =
      .ofDirectory work.depth +
        (((tree.childEntries work.path).filter fun entry => !entry.node.isDirectory).map
          (Entry.counted base)).sum +
        ((onward work (tree.children work.path)).map (remaining tree base)).sum := by
  have deeper : ((onward work (tree.children work.path)).map (remaining tree base)).sum =
      ((tree.childDirectories work.path).map (Entry.counted base)).sum +
        (((tree.childDirectories work.path).flatMap fun directory =>
          tree.below directory.path).map (Entry.counted base)).sum := by
    rw [onward_children, List.map_reverse, List.sum_reverse, List.map_map, List.map_flatMap,
      List.flatMap_def, List.sum_flatten, List.map_map, ← List.sum_map_add]
    congr 1
    apply List.map_congr_left
    intro directory member
    rcases mem_child_directories.mp member with ⟨_, child, isDirectory⟩
    have depth : directory.path.parts.length - base.parts.length = work.depth + 1 := by
      rw [Path.length_child child, placed]
      omega
    rw [Function.comp_apply, remaining, Entry.counted, isDirectory, depth]
    rfl
  have split := ((List.filter_append_perm (fun entry : Entry => entry.node.isDirectory)
    (tree.childEntries work.path)).map (Entry.counted base)).sum_eq
  have whole := ((formed.below_perm work.path).map (Entry.counted base)).sum_eq
  rw [List.map_append, List.sum_append, ← split, List.map_append, List.sum_append] at whole
  rw [remaining, whole, deeper, childDirectories]
  abel

/-! What waits -/

/-- A directory that waits behind the first path, as deep as its path is longer. -/
structure Awaits (tree : Tree) (base : Path) (work : Pending) : Prop where
  directory : tree.node? work.path = some .directory
  placed : work.path.parts.length = base.parts.length + work.depth
  later : 0 < work.depth

theorem onward_awaits {tree : Tree} (formed : tree.WellFormed) {base : Path} {work : Pending}
    (placed : work.path.parts.length = base.parts.length + work.depth) :
    ∀ next ∈ onward work (tree.children work.path), Awaits tree base next := by
  rw [onward_children]
  intro next member
  rcases List.mem_map.mp (List.mem_reverse.mp member) with ⟨entry, inside, rfl⟩
  rcases mem_child_directories.mp inside with ⟨isEntry, child, isDirectory⟩
  refine ⟨?_, ?_, Nat.succ_pos _⟩
  · rw [← isDirectory]
    exact node_of_mem formed.distinct isEntry (Path.same_refl _)
  · change entry.path.parts.length = base.parts.length + (work.depth + 1)
    rw [Path.length_child child, placed]
    omega

def Reaches (tree : Tree) (waiting : List Pending) (path : Path) : Prop :=
  ∃ work ∈ waiting, work.path = path ∨
    ∃ entry ∈ tree.below work.path, entry.node = .directory ∧ entry.path = path

theorem reaches_append (tree : Tree) (front back : List Pending) (path : Path) :
    Reaches tree (front ++ back) path ↔ Reaches tree front path ∨ Reaches tree back path := by
  simp only [Reaches, List.mem_append, or_and_right, exists_or]

theorem reaches_onward {tree : Tree} (formed : tree.WellFormed) (work : Pending) (path : Path) :
    Reaches tree (onward work (tree.children work.path)) path ↔
      ∃ entry ∈ tree.below work.path, entry.node = .directory ∧ entry.path = path := by
  rw [onward_children]
  constructor
  · rintro ⟨next, member, reached⟩
    rcases List.mem_map.mp (List.mem_reverse.mp member) with ⟨directory, isChild, rfl⟩
    rcases reached with here | ⟨entry, deeper, isDeeper, same⟩
    · rcases mem_child_directories.mp isChild with ⟨isEntry, child, isDirectory⟩
      exact ⟨directory, mem_below.mpr ⟨isEntry, Path.below_of_child child⟩, isDirectory, here⟩
    · exact ⟨entry, formed.mem_below_iff.mpr (Or.inr ⟨directory, isChild, deeper⟩), isDeeper, same⟩
  · rintro ⟨entry, inside, isDirectory, same⟩
    have next (directory : Entry) (isChild : directory ∈ tree.childDirectories work.path) :
        Pending.mk directory.path (work.depth + 1) ∈
          ((tree.childDirectories work.path).map fun entry =>
            Pending.mk entry.path (work.depth + 1)).reverse :=
      List.mem_reverse.mpr (List.mem_map_of_mem isChild)
    rcases formed.mem_below_iff.mp inside with isChild | ⟨directory, isChild, deeper⟩
    · rcases mem_child_entries.mp isChild with ⟨member, child⟩
      exact ⟨_, next entry (mem_child_directories.mpr ⟨member, child, isDirectory⟩), Or.inl same⟩
    · exact ⟨_, next directory isChild, Or.inr ⟨entry, deeper, isDirectory, same⟩⟩

/-! A whole scan -/

section scans

variable {tree : Tree} (refuse : Path → Option IoError)

theorem visit_nothing (steps : Nat) (totals : ScanTotals) :
    perform (visit (refusing refuse) steps [] totals) tree = (.ok totals, tree) := by
  cases steps <;> rfl

theorem visit_step (steps : Nat) (work : Pending) (waiting : List Pending) (totals : ScanTotals) :
    perform (visit (refusing refuse) (steps + 1) (work :: waiting) totals) tree =
      match tree.listUnless refuse work.path with
      | .ok statuses =>
          perform (visit (refusing refuse) steps (onward work statuses ++ waiting)
            (tally work statuses totals)) tree
      | .error error =>
          if error.kind = .notFound ∧ work.depth = 0 then
            perform (visit (refusing refuse) steps waiting totals) tree
          else (.error error, tree) := by
  rw [visit, perform_bind, perform_outcome, perform_refusing]
  cases tree.listUnless refuse work.path with
  | ok statuses => rfl
  | error error =>
      simp only
      split
      · rfl
      · rfl

def stepsFor (tree : Tree) (waiting : List Pending) : Nat :=
  Local.stepsFor tree (waiting.map (·.path))

theorem steps_for_cons (tree : Tree) (work : Pending) (rest : List Pending) :
    stepsFor tree (work :: rest) = 1 + tree.countBelow work.path + stepsFor tree rest := by
  rw [stepsFor, List.map_cons, Local.steps_for_cons, stepsFor]

/-- A visit takes a directory out of what waits and puts in less than lies below it. -/
theorem steps_onward (distinct : tree.Distinct) (work : Pending) {statuses : List Status}
    (listed : tree.list work.path = .ok statuses) (waiting : List Pending) :
    stepsFor tree (onward work statuses ++ waiting) + 1 ≤ stepsFor tree (work :: waiting) := by
  have fewer := sum_directories_le distinct (fun _ => true) work.path
  have onwardPaths : (onward work statuses).map (·.path) =
      (tree.directoriesAt (fun _ => true) work.path).reverse := by
    rw [directoriesAt, listing_of_ok listed, onward, List.filter_true, List.map_reverse,
      List.map_map]
    rfl
  rw [stepsFor, stepsFor, Local.stepsFor, Local.stepsFor, List.map_append, onwardPaths,
    List.map_append, List.sum_append, List.map_reverse, List.sum_reverse, List.map_cons,
    List.map_cons, List.sum_cons]
  omega

/-- Where the steps are enough, more of them change nothing. -/
theorem visit_more (distinct : tree.Distinct) (steps more : Nat) (waiting : List Pending)
    (totals : ScanTotals) (enough : stepsFor tree waiting ≤ steps) :
    perform (visit (refusing refuse) (steps + more) waiting totals) tree =
      perform (visit (refusing refuse) steps waiting totals) tree := by
  induction steps generalizing waiting totals with
  | zero =>
      cases waiting with
      | nil => rw [visit_nothing, visit_nothing]
      | cons work rest =>
          rw [steps_for_cons] at enough
          omega
  | succ steps induction =>
      cases waiting with
      | nil => rw [visit_nothing, visit_nothing]
      | cons work rest =>
          rw [Nat.add_right_comm, visit_step, visit_step]
          cases listed : tree.listUnless refuse work.path with
          | ok statuses =>
              have less := steps_onward distinct work (list_of_unless listed).2 rest
              exact induction _ _ (by omega)
          | error error =>
              simp only
              split
              · rw [steps_for_cons] at enough
                exact induction _ _ (by omega)
              · rfl

/-- How a scan settles: it ends with these totals, or it fails for a directory that it reaches and
that cannot be listed. -/
def Settles (tree : Tree) (reaches : Path → Prop) (totals : ScanTotals)
    (result : Except IoError ScanTotals × Tree) : Prop :=
  ((∀ path, reaches path → refuse path = none) ∧ result = (.ok totals, tree)) ∨
  ∃ path error, reaches path ∧ refuse path = some error ∧ result = (.error error, tree)

variable {refuse}

theorem Settles.congr {reaches others : Path → Prop} {totals : ScanTotals}
    {result : Except IoError ScanTotals × Tree}
    (settled : Settles refuse tree reaches totals result)
    (alike : ∀ path, others path ↔ reaches path) :
    Settles refuse tree others totals result := by
  have same : others = reaches := by
    funext path
    exact propext (alike path)
  rw [same]
  exact settled

theorem Settles.with_listed {reaches : Path → Prop} {totals : ScanTotals}
    {result : Except IoError ScanTotals × Tree} {here : Path}
    (settled : Settles refuse tree reaches totals result) (spared : refuse here = none) :
    Settles refuse tree (fun path => here = path ∨ reaches path) totals result := by
  rcases settled with ⟨allSpared, done⟩ | ⟨path, error, reached, refused, failed⟩
  · refine Or.inl ⟨?_, done⟩
    rintro path (same | deeper)
    · exact same ▸ spared
    · exact allSpared path deeper
  · exact Or.inr ⟨path, error, Or.inr reached, refused, failed⟩

theorem settles_nothing (base : Path) (steps : Nat) (totals : ScanTotals) :
    Settles refuse tree (Reaches tree []) (totals + (([] : List Pending).map
      (remaining tree base)).sum) (perform (visit (refusing refuse) steps [] totals) tree) := by
  rw [visit_nothing, List.map_nil, List.sum_nil, add_zero]
  refine Or.inl ⟨?_, rfl⟩
  rintro path ⟨work, member, _⟩
  exact absurd member List.not_mem_nil

variable (refuse)

/-- A scan of what waits adds all of it, or it fails for a directory among it that cannot be
listed. -/
theorem visit_awaiting (formed : tree.WellFormed) (base : Path) (steps : Nat)
    (waiting : List Pending) (totals : ScanTotals) (enough : stepsFor tree waiting ≤ steps)
    (awaits : ∀ work ∈ waiting, Awaits tree base work) :
    Settles refuse tree (Reaches tree waiting)
      (totals + (waiting.map (remaining tree base)).sum)
      (perform (visit (refusing refuse) steps waiting totals) tree) := by
  induction steps generalizing waiting totals with
  | zero =>
      cases waiting with
      | nil => exact settles_nothing base 0 totals
      | cons work rest =>
          rw [steps_for_cons] at enough
          omega
  | succ steps induction =>
      cases waiting with
      | nil => exact settles_nothing base (steps + 1) totals
      | cons work rest =>
          rw [List.forall_mem_cons] at awaits
          rcases awaits with ⟨here, later⟩
          have listed := list_directory here.directory
          have reaches (path : Path) : Reaches tree (work :: rest) path ↔
              work.path = path ∨
                Reaches tree (onward work (tree.children work.path) ++ rest) path := by
            rw [reaches_append, reaches_onward formed, ← List.singleton_append, reaches_append,
              ← or_assoc]
            simp [Reaches]
          rw [visit_step, listUnless]
          cases refused : refuse work.path with
          | some error =>
              -- only the path that is scanned may be absent, and what waits here is deeper
              have notFirst : ¬(error.kind = .notFound ∧ work.depth = 0) := by
                intro first
                have later := here.later
                omega
              exact Or.inr ⟨work.path, error, (reaches _).mpr (Or.inl rfl), refused,
                if_neg notFirst⟩
          | none =>
              have less := steps_onward formed.distinct work listed rest
              have added := remaining_eq formed base work here.placed
              have settled := induction (onward work (tree.children work.path) ++ rest)
                (tally work (tree.children work.path) totals) (by omega)
                (List.forall_mem_append.mpr ⟨onward_awaits formed here.placed, later⟩)
              have moved : totals + ((work :: rest).map (remaining tree base)).sum =
                  tally work (tree.children work.path) totals +
                    ((onward work (tree.children work.path) ++ rest).map
                      (remaining tree base)).sum := by
                rw [tally_children tree base, List.map_append, List.sum_append, List.map_cons,
                  List.sum_cons, added]
                abel
              rw [moved]
              simp only [listed]
              exact (settled.with_listed refused).congr reaches

theorem perform_totals (distinct : tree.Distinct) (path : Path) {steps : Nat}
    (enough : tree.size < steps) :
    perform (totals (refusing refuse) path) tree =
      perform (visit (refusing refuse) steps [⟨path, 0⟩] .zero) tree := by
  have bounded := tree.count_below_le_size path
  have needed : stepsFor tree [⟨path, 0⟩] ≤ tree.size + 1 := Local.steps_for_one_le tree path
  have given := visit_more refuse distinct (tree.size + 1) 1 [⟨path, 0⟩] .zero needed
  have asked := visit_more refuse distinct (tree.size + 1) (steps - (tree.size + 1))
    [⟨path, 0⟩] .zero needed
  rw [Nat.add_sub_cancel' enough] at asked
  rw [totals, perform_bind, perform_lift, asked, ← given]
  rfl

theorem totals_of_file (distinct : tree.Distinct) {path : Path} {contents : Bytes}
    (found : tree.contents? path = some contents) (spared : refuse path = none) :
    perform (totals (refusing refuse) path) tree = (.ok ⟨0, 1, contents.length, 0⟩, tree) := by
  have listed : tree.listUnless refuse path = .ok [.file path contents.length] := by
    rw [listUnless, spared, list, contents_of_node.mp found]
  have alone : isFileListing path [.file path contents.length] = true := Path.same_refl path
  have tallied : tally ⟨path, 0⟩ [.file path contents.length] .zero =
      ⟨0, 1, contents.length, 0⟩ := by
    rw [tally, alone, if_pos rfl]
    exact ScanTotals.ext rfl rfl (Nat.zero_add _) rfl
  rw [perform_totals refuse distinct path (Nat.lt_succ_self _), visit_step, listed, ← tallied]
  exact visit_nothing refuse tree.size _

/-- A directory counts all that is below it, unless something there cannot be listed. -/
theorem totals_of_open (formed : tree.WellFormed) {path : Path} (isOpen : tree.IsOpen path)
    (spared : refuse path = none) :
    Settles refuse tree
      (fun place => ∃ entry ∈ tree.below path, entry.node = .directory ∧ entry.path = place)
      (tree.totalsUnder path) (perform (totals (refusing refuse) path) tree) := by
  have listed := formed.list_open isOpen
  have permitted : tree.listUnless refuse path = .ok (tree.children path) := by
    rw [listUnless, spared, listed]
  have bounded := tree.count_below_le_size path
  have less := steps_onward formed.distinct ⟨path, 0⟩ listed []
  have needed : stepsFor tree [⟨path, 0⟩] ≤ tree.size + 1 := Local.steps_for_one_le tree path
  have placed : path.parts.length = path.parts.length + 0 := (Nat.add_zero _).symm
  rw [List.append_nil] at less
  have settled := visit_awaiting refuse formed path tree.size
    (onward ⟨path, 0⟩ (tree.children path)) (tally ⟨path, 0⟩ (tree.children path) .zero)
    (by omega) (onward_awaits formed placed)
  have whole : tree.totalsUnder path = tally ⟨path, 0⟩ (tree.children path) .zero +
      ((onward ⟨path, 0⟩ (tree.children path)).map (remaining tree path)).sum := by
    rw [totals_under_eq, tally_children tree path ⟨path, 0⟩, ← zero_add (ScanTotals.ofDirectory 0)]
    exact (remaining_eq formed path ⟨path, 0⟩ placed)
  rw [perform_totals refuse formed.distinct path (Nat.lt_succ_self _), visit_step, permitted, whole]
  simp only [List.append_nil]
  exact settled.congr fun place => (reaches_onward formed ⟨path, 0⟩ place).symm

theorem below_of_file (formed : tree.WellFormed) {path : Path} {contents : Bytes}
    (found : tree.contents? path = some contents) : tree.below path = [] := by
  rw [contents_of_node] at found
  apply List.eq_nil_iff_forall_not_mem.mpr
  intro entry inside
  rcases mem_below.mp inside with ⟨member, below⟩
  have notRoot : path.isRoot = false := by
    rw [Bool.eq_false_iff]
    intro isRoot
    rw [formed.node_of_root isRoot] at found
    exact absurd found (by simp)
  have apart : path.parts ≠ entry.path.parts := by
    intro same
    have shorter := Path.length_of_below below
    rw [same] at shorter
    omega
  have present : (tree.node? entry.path).isSome := present_of_place (List.mem_map_of_mem member)
  have directory := directory_above formed.rooted present
    ((leads_above_iff path entry.path).mpr ⟨Path.prefix_of_below below, notRoot, apart⟩)
  rw [found] at directory
  exact absurd directory (by simp)

theorem open_of_below (formed : tree.WellFormed) {path : Path} {statuses : List Status}
    (listed : tree.list path = .ok statuses) {entry : Entry} (inside : entry ∈ tree.below path) :
    tree.IsOpen path := by
  rcases list_cases listed with ⟨_, found | ⟨isRoot, _⟩⟩ | ⟨contents, found, _⟩
  · exact Or.inl found
  · exact Or.inr isRoot
  · rw [below_of_file formed (contents_of_node.mpr found)] at inside
    exact absurd inside List.not_mem_nil

theorem list_below (formed : tree.WellFormed) {path : Path} {entry : Entry}
    (inside : entry ∈ tree.below path) (directory : entry.node = .directory) :
    tree.list entry.path = .ok (tree.children entry.path) :=
  formed.list_open (formed.open_of_member (mem_below.mp inside).1 directory)

/-- A scan ends, whatever bound is set on its steps beyond the number of entries. A path that is not
found counts nothing, and one that cannot be listed for another reason fails the scan. Otherwise a
directory below the path that cannot be listed fails it, whatever the reason; and if there is none,
the scan counts exactly the file at the path, or the directory there and all that lies below it. -/
theorem scan_counts_exactly (formed : tree.WellFormed) (path : Path) :
    (∀ steps, tree.size < steps →
      perform (visit (refusing refuse) steps [⟨path, 0⟩] .zero) tree =
        perform (totals (refusing refuse) path) tree) ∧
    (∀ error, tree.listUnless refuse path = .error error →
      perform (totals (refusing refuse) path) tree =
        (if error.kind = .notFound then .ok .zero else .error error, tree)) ∧
    ((tree.listUnless refuse path).isOk = true →
      ((∃ entry ∈ tree.below path, entry.node = .directory ∧
          (tree.listUnless refuse entry.path).isOk = false) →
        ∃ entry ∈ tree.below path, ∃ error, entry.node = .directory ∧
          tree.listUnless refuse entry.path = .error error ∧
            perform (totals (refusing refuse) path) tree = (.error error, tree)) ∧
      ((∀ entry ∈ tree.below path, entry.node = .directory →
          (tree.listUnless refuse entry.path).isOk = true) →
        (∀ contents, tree.contents? path = some contents →
          perform (totals (refusing refuse) path) tree =
            (.ok ⟨0, 1, contents.length, 0⟩, tree)) ∧
        (tree.IsOpen path →
          perform (totals (refusing refuse) path) tree =
            (.ok (tree.totalsUnder path), tree)))) := by
  refine ⟨?_, ?_, ?_⟩
  · intro steps enough
    exact (perform_totals refuse formed.distinct path enough).symm
  · intro error failed
    rw [perform_totals refuse formed.distinct path (Nat.lt_succ_self _), visit_step, failed]
    by_cases absent : error.kind = .notFound
    · simp only [absent, and_self, if_true]
      exact visit_nothing refuse tree.size .zero
    · simp only [absent, false_and, if_false]
  · intro isOk
    rcases exists_ok isOk with ⟨statuses, listed⟩
    have spared := (list_of_unless listed).1
    constructor
    · rintro ⟨entry, inside, directory, failing⟩
      have isOpen := open_of_below formed (list_of_unless listed).2 inside
      rcases totals_of_open refuse formed isOpen spared with ⟨allSpared, _⟩ |
        ⟨_, error, ⟨culprit, isBelow, isDirectory, rfl⟩, refused, failed⟩
      · have entryListed := (spared_iff (list_below formed inside directory)).mpr
          (allSpared entry.path ⟨entry, inside, directory, rfl⟩)
        rw [entryListed] at failing
        exact absurd failing (by simp)
      · have culpritFails := (refused_iff (list_below formed isBelow isDirectory) error).mpr refused
        exact ⟨culprit, isBelow, error, isDirectory, culpritFails, failed⟩
    · intro allListed
      constructor
      · intro contents found
        exact totals_of_file refuse formed.distinct found spared
      · intro isOpen
        rcases totals_of_open refuse formed isOpen spared with ⟨_, done⟩ |
          ⟨_, error, ⟨culprit, isBelow, isDirectory, rfl⟩, refused, _⟩
        · exact done
        · have culpritSpared := (spared_iff (list_below formed isBelow isDirectory)).mp
            (allListed culprit isBelow isDirectory)
          rw [refused] at culpritSpared
          exact absurd culpritSpared (by simp)

end scans

def nestedInput : Tree :=
  ((Tree.empty.addFile (.ofText "/in/a") [1, 2]).addFile (.ofText "/in/d/e/b")
    [3, 4, 5]).ensureDirectories (.ofText "/in/f")

theorem nested_input_formed : nestedInput.WellFormed := by
  have reachable : nestedInput.Reachable :=
    ⟨[], .next (.next (.next .start (.addFile _ _ _)) (.addFile _ _ _)) (.addDirectory _ _)⟩
  exact .of_reachable reachable (by decide +kernel) (by decide +kernel)

/-- One directory is gone by the time that it is listed. -/
def vanishing (path : Path) : Option IoError :=
  if path = .ofText "/in/d/e" then some (.notFound "gone") else none

theorem nested_input_scanned :
    nestedInput.WellFormed ∧
      perform (totals (refusing fun _ => none) (.ofText "/in")) nestedInput =
        (.ok ⟨4, 2, 5, 2⟩, nestedInput) ∧
      (∃ error, perform (totals (refusing vanishing) (.ofText "/in")) nestedInput =
        (.error error, nestedInput)) ∧
      perform (totals (refusing vanishing) (.ofText "/in/d/e")) nestedInput =
        (.ok .zero, nestedInput) := by
  refine ⟨nested_input_formed, ?_, ?_, ?_⟩
  · rcases scan_counts_exactly (fun _ => none) nested_input_formed (.ofText "/in") with
      ⟨_, _, counted⟩
    have whole := ((counted (by decide +kernel)).2 (by decide +kernel)).2
      (Or.inl (by decide +kernel))
    rw [whole]
    congr 2
  · rcases scan_counts_exactly vanishing nested_input_formed (.ofText "/in") with ⟨_, _, counted⟩
    rcases (counted (by decide +kernel)).1 (by decide +kernel) with ⟨_, _, error, _, _, failed⟩
    exact ⟨error, failed⟩
  · rcases scan_counts_exactly vanishing nested_input_formed (.ofText "/in/d/e") with ⟨_, absent, _⟩
    exact absent (.notFound "gone") (by decide +kernel)

end Scan

end ChunkStore
