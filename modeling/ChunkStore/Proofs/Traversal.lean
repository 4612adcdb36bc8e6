import ChunkStore.Job.Local
import ChunkStore.Proofs.Listings
import ChunkStore.Proofs.MemoryFiles
import Mathlib.Algebra.GroupWithZero.Nat
import Mathlib.Algebra.Order.BigOperators.Group.List
import Mathlib.Algebra.Order.Group.Nat

/-!
Walking a tree. The input files of a job are those of a directory followed by those of each
directory in it. The walk works from a stack under a bound on its steps; the bound is enough since
every step takes one entry out of what is still to be visited.
-/

namespace ChunkStore

set_option autoImplicit false

open Stateful

namespace Memory.Tree

/-! How much there is to visit -/

def countAt (tree : Tree) (path : Path) : Nat :=
  tree.entries.countP fun entry => entry.path.startsWith path

def countBelow (tree : Tree) (path : Path) : Nat :=
  tree.entries.countP fun entry => entry.path.startsWith path && !entry.path.same path

theorem sum_count_le {α β : Type} (rows : List α) (columns : List β) (meets : α → β → Bool)
    (once : β → Bool)
    (single : ∀ column ∈ columns, rows.countP (meets · column) ≤ if once column then 1 else 0) :
    (rows.map fun row => columns.countP (meets row)).sum ≤ columns.countP once := by
  induction columns with
  | nil => simp
  | cons column rest induction =>
      have split (rows : List α) :
          (rows.map fun row => (column :: rest).countP (meets row)).sum =
            (rows.map fun row => rest.countP (meets row)).sum + rows.countP (meets · column) := by
        induction rows with
        | nil => rfl
        | cons row others step =>
            rw [List.map_cons, List.sum_cons, step, List.countP_cons, List.countP_cons,
              List.map_cons, List.sum_cons]
            omega
      have here := single column List.mem_cons_self
      have later := induction fun other member => single other (List.mem_cons_of_mem column member)
      rw [split, List.countP_cons]
      omega

/-- The directories directly below a path, without those that a rule leaves out. -/
def directoriesAt (tree : Tree) (keep : Status → Bool) (path : Path) : List Path :=
  (((tree.listing path).filter keep).filter (·.isDirectory)).map (·.path)

theorem directories_nodup {tree : Tree} (distinct : tree.Distinct) (keep : Status → Bool)
    (path : Path) : ((tree.directoriesAt keep path).map Path.parts).Nodup := by
  have apart : ((tree.listing path).map (·.path.parts)).Nodup := by
    rw [listing]
    cases listed : tree.list path with
    | error error => exact List.nodup_nil
    | ok statuses => exact listed_apart distinct listed
  rw [directoriesAt, List.map_map]
  exact apart.sublist ((List.filter_sublist.trans List.filter_sublist).map _)

theorem directories_below {tree : Tree} {keep : Status → Bool} {path directory : Path}
    (member : directory ∈ tree.directoriesAt keep path) :
    ∃ entry ∈ tree.entries, entry.path = directory ∧ directory.isChildOf path = true := by
  obtain ⟨status, inside, rfl⟩ := List.mem_map.mp member
  obtain ⟨kept, isDirectory⟩ := List.mem_filter.mp inside
  obtain ⟨entry, there, _, same, child⟩ := entry_of_listed (List.mem_filter.mp kept).1 isDirectory
  exact ⟨entry, there, same, same ▸ child⟩

theorem count_at_of_mem {tree : Tree} {entry : Entry} (member : entry ∈ tree.entries) :
    1 + tree.countBelow entry.path ≤ tree.countAt entry.path := by
  have here : 0 < (tree.entries.filter (·.path.same entry.path)).countP
      (·.path.startsWith entry.path) := by
    refine List.countP_pos_iff.mpr ⟨entry, List.mem_filter.mpr ⟨member, Path.same_refl _⟩, ?_⟩
    exact (Path.starts_with_iff_parts _ _).mpr List.prefix_rfl
  have below : (tree.entries.filter fun other => !other.path.same entry.path).countP
      (·.path.startsWith entry.path) = tree.countBelow entry.path := List.countP_filter
  have split := List.countP_eq_countP_filter_add tree.entries (·.path.startsWith entry.path)
    (·.path.same entry.path)
  rw [countAt, split, below]
  omega

/-- Directories at a path have as many parts each, so two that lead to one place are the same. -/
theorem directories_meet {tree : Tree} {keep : Status → Bool} {path left right place : Path}
    (isLeft : left ∈ tree.directoriesAt keep path) (isRight : right ∈ tree.directoriesAt keep path)
    (leftLeads : place.startsWith left = true) (rightLeads : place.startsWith right = true) :
    left.parts = right.parts := by
  obtain ⟨_, _, _, leftChild⟩ := directories_below isLeft
  obtain ⟨_, _, _, rightChild⟩ := directories_below isRight
  have lengths := (Path.length_child leftChild).trans (Path.length_child rightChild).symm
  rw [Path.starts_with_iff_parts] at leftLeads rightLeads
  exact (List.prefix_of_prefix_length_le leftLeads rightLeads lengths.le).eq_of_length lengths

theorem below_of_directory {tree : Tree} {keep : Status → Bool} {path directory place : Path}
    (member : directory ∈ tree.directoriesAt keep path)
    (leads : place.startsWith directory = true) :
    (place.startsWith path && !place.same path) = true := by
  obtain ⟨_, _, _, child⟩ := directories_below member
  obtain ⟨part, _, parts⟩ := (Path.is_child_iff directory path).mp child
  rw [Path.starts_with_iff_parts, parts] at leads
  rw [Bool.and_eq_true, Path.starts_with_iff_parts, Bool.not_eq_true']
  refine ⟨(List.prefix_append _ _).trans leads, Path.not_same_of_length ?_⟩
  have length := leads.length_le
  rw [List.length_append, List.length_singleton] at length
  omega

/-- A place below a path lies in at most one of the directories there, and any other in none. -/
theorem count_leading_le {tree : Tree} (distinct : tree.Distinct) (keep : Status → Bool)
    (path place : Path) :
    (tree.directoriesAt keep path).countP (place.startsWith ·) ≤
      if (place.startsWith path && !place.same path) = true then 1 else 0 := by
  rw [List.countP_eq_length_filter]
  have apart := (directories_nodup distinct keep path).sublist
    (List.filter_sublist (p := (place.startsWith ·)) |>.map Path.parts)
  have leading : ∀ directory ∈ (tree.directoriesAt keep path).filter (place.startsWith ·),
      directory ∈ tree.directoriesAt keep path ∧ place.startsWith directory = true :=
    fun directory member => List.mem_filter.mp member
  generalize (tree.directoriesAt keep path).filter (place.startsWith ·) = directories
    at apart leading
  cases directories with
  | nil => exact Nat.zero_le _
  | cons first others =>
      obtain ⟨isFirst, firstLeads⟩ := leading first List.mem_cons_self
      rw [if_pos (below_of_directory isFirst firstLeads)]
      cases others with
      | nil => exact Nat.le_refl 1
      | cons second others =>
          obtain ⟨isSecond, secondLeads⟩ :=
            leading second (List.mem_cons_of_mem first List.mem_cons_self)
          have same := directories_meet isFirst isSecond firstLeads secondLeads
          rw [List.map_cons, List.map_cons, same] at apart
          exact absurd List.mem_cons_self (List.nodup_cons.mp apart).1

/-- What lies below the directories at a path, with these directories, lies below the path. -/
theorem sum_directories_le {tree : Tree} (distinct : tree.Distinct) (keep : Status → Bool)
    (path : Path) :
    ((tree.directoriesAt keep path).map fun directory => 1 + tree.countBelow directory).sum ≤
      tree.countBelow path := by
  calc ((tree.directoriesAt keep path).map fun directory => 1 + tree.countBelow directory).sum
      ≤ ((tree.directoriesAt keep path).map fun directory => tree.countAt directory).sum := by
        apply List.sum_le_sum
        intro directory member
        obtain ⟨entry, there, same, _⟩ := directories_below member
        exact same ▸ count_at_of_mem there
    _ ≤ tree.countBelow path :=
        sum_count_le _ tree.entries (fun directory entry => entry.path.startsWith directory) _
          fun entry _ => count_leading_le distinct keep path entry.path

theorem count_below_le_size (tree : Tree) (path : Path) : tree.countBelow path ≤ tree.size :=
  List.countP_le_length

end Memory.Tree

/-! Input files -/

namespace Local

open Memory

def isInput (status : Status) : Bool := !isIgnored status

def ownInputs (tree : Tree) (path : Path) : List Path :=
  (((tree.listing path).filter isInput).filter fun status => !status.isDirectory).map (·.path)

/-- The input files at a path as deep as so many directories: its own ones, and then those of each
of its directories. -/
def inputsWithin (tree : Tree) : Nat → Path → List Path
  | 0, _ => []
  | depth + 1, path =>
      ownInputs tree path ++ (tree.directoriesAt isInput path).flatMap (inputsWithin tree depth)

/-- No path of the tree has more parts. -/
def height (tree : Tree) : Nat := (tree.entries.map (·.path.parts.length)).foldr max 0

/-- The input files at a path, in the order in which they are visited. -/
def inputsAt (tree : Tree) (path : Path) : List Path := inputsWithin tree (height tree + 1) path

theorem length_le_height {tree : Tree} {entry : Entry} (member : entry ∈ tree.entries) :
    entry.path.parts.length ≤ height tree := by
  have bounded (entries : List Entry) (inside : entry ∈ entries) :
      entry.path.parts.length ≤ (entries.map (·.path.parts.length)).foldr max 0 := by
    induction entries with
    | nil => exact absurd inside (by simp)
    | cons first rest induction =>
        rw [List.map_cons, List.foldr_cons]
        rcases List.mem_cons.mp inside with here | later
        · rw [here]
          exact Nat.le_max_left _ _
        · exact Nat.le_trans (induction later) (Nat.le_max_right _ _)
  exact bounded tree.entries member

theorem length_directory {tree : Tree} {keep : Status → Bool} {path directory : Path}
    (member : directory ∈ tree.directoriesAt keep path) :
    directory.parts.length = path.parts.length + 1 ∧ directory.parts.length ≤ height tree := by
  obtain ⟨entry, there, same, child⟩ := Tree.directories_below member
  obtain ⟨part, _, parts⟩ := (Path.is_child_iff directory path).mp child
  refine ⟨by simp [parts], ?_⟩
  rw [← same]
  exact length_le_height there

theorem directories_shallow {tree : Tree} (keep : Status → Bool) {path : Path}
    (low : height tree ≤ path.parts.length) : tree.directoriesAt keep path = [] := by
  apply List.eq_nil_iff_forall_not_mem.mpr
  intro directory member
  have lengths := length_directory member
  omega

theorem inputs_within_shallow (tree : Tree) (depth : Nat) (path : Path)
    (low : height tree ≤ path.parts.length) :
    inputsWithin tree (depth + 1) path = ownInputs tree path := by
  rw [inputsWithin, directories_shallow isInput low, List.flatMap_nil, List.append_nil]

/-- Looking deeper than the tree is finds nothing more. -/
theorem inputs_within_deep (tree : Tree) (depth other : Nat) (path : Path)
    (deep : height tree ≤ depth + path.parts.length)
    (otherDeep : height tree ≤ other + path.parts.length) :
    inputsWithin tree (depth + 1) path = inputsWithin tree (other + 1) path := by
  induction depth generalizing other path with
  | zero =>
      rw [inputs_within_shallow tree _ path (by omega),
        inputs_within_shallow tree _ path (by omega)]
  | succ depth induction =>
      cases other with
      | zero =>
          rw [inputs_within_shallow tree _ path (by omega),
            inputs_within_shallow tree _ path (by omega)]
      | succ other =>
          rw [inputsWithin, inputsWithin]
          congr 1
          apply List.flatMap_congr
          intro directory member
          have lengths := length_directory member
          exact induction other directory (by omega) (by omega)

/-- The input files at a path are its own and then those of each of its directories. -/
theorem inputs_at_eq (tree : Tree) (path : Path) :
    inputsAt tree path =
      ownInputs tree path ++ (tree.directoriesAt isInput path).flatMap (inputsAt tree) := by
  rw [inputsAt, inputsWithin]
  congr 1
  apply List.flatMap_congr
  intro directory member
  have lengths := length_directory member
  unfold inputsAt
  cases tall : height tree with
  | zero => omega
  | succ height => exact inputs_within_deep tree height (height + 1) directory (by omega) (by omega)

/-- The steps that a walk from some paths needs at most. -/
def stepsFor (tree : Tree) (waiting : List Path) : Nat :=
  (waiting.map fun path => 1 + tree.countBelow path).sum

theorem steps_for_cons (tree : Tree) (path : Path) (rest : List Path) :
    stepsFor tree (path :: rest) = 1 + tree.countBelow path + stepsFor tree rest := by
  rw [stepsFor, List.map_cons, List.sum_cons, stepsFor]

theorem steps_for_one_le (tree : Tree) (path : Path) : stepsFor tree [path] ≤ tree.size + 1 := by
  have bounded := tree.count_below_le_size path
  rw [steps_for_cons, stepsFor, List.map_nil, List.sum_nil]
  omega

/-- A visit takes a path out of what waits and puts in less than lies below it. -/
theorem steps_for_visited {tree : Tree} (distinct : tree.Distinct) (keep : Status → Bool)
    (path : Path) (rest : List Path) :
    stepsFor tree (tree.directoriesAt keep path ++ rest) + 1 ≤ stepsFor tree (path :: rest) := by
  have fewer := Tree.sum_directories_le distinct keep path
  rw [steps_for_cons, stepsFor, List.map_append, List.sum_append, stepsFor]
  omega

theorem perform_collect_inputs {tree : Tree} (distinct : tree.Distinct) (steps : Nat)
    (waiting found : List Path) (enough : stepsFor tree waiting ≤ steps)
    (listed : ∀ path ∈ waiting, tree.list path = .ok (tree.listing path)) :
    perform (collectInputs files steps waiting found) tree =
      (.ok (found.reverse ++ waiting.flatMap (inputsAt tree)), tree) := by
  induction steps generalizing waiting found with
  | zero =>
      cases waiting with
      | nil => simp [collectInputs]
      | cons path rest =>
          rw [steps_for_cons] at enough
          omega
  | succ steps induction =>
      cases waiting with
      | nil => simp [collectInputs]
      | cons path rest =>
          have visited : perform (files.list path) tree = (.ok (tree.listing path), tree) := by
            rw [perform_list, listed path List.mem_cons_self]
          rw [collectInputs, perform_bind_ok visited]
          change perform (collectInputs files steps (tree.directoriesAt isInput path ++ rest)
            ((ownInputs tree path).reverseAux found)) tree = _
          have fewer := steps_for_visited distinct isInput path rest
          have walked := induction (tree.directoriesAt isInput path ++ rest)
            ((ownInputs tree path).reverseAux found) (by omega) ?_
          · rw [walked, Source.reverse_reverse_aux, List.append_assoc, List.flatMap_append,
              ← List.append_assoc (ownInputs tree path), ← inputs_at_eq, ← List.flatMap_cons]
          · intro below member
            rcases List.mem_append.mp member with inside | later
            · obtain ⟨status, kept, rfl⟩ := List.mem_map.mp inside
              obtain ⟨isKept, directory⟩ := List.mem_filter.mp kept
              exact Tree.list_of_listed distinct (List.mem_filter.mp isKept).1 directory
            · exact listed below (List.mem_cons_of_mem path later)

/-- The input files of a job are those at its input path, and finding them changes nothing. -/
theorem perform_input_files {tree : Tree} (distinct : tree.Distinct) (root : Path) :
    perform (inputFiles files root) tree =
      match tree.list root with
      | .ok _ => (.ok (inputsAt tree root), tree)
      | .error error => (.error error, tree) := by
  rw [inputFiles, perform_bind, perform_lift, exec_extent]
  cases listed : tree.list root with
  | error error =>
      have refused : perform (files.list root) tree = (.error error, tree) := by
        rw [perform_list, listed]
      simp only [collectInputs]
      rw [perform_bind_error refused]
  | ok statuses =>
      have enough : stepsFor tree [root] ≤ tree.size + 1 + 1 :=
        Nat.le_succ_of_le (steps_for_one_le tree root)
      simp only
      rw [perform_collect_inputs distinct _ [root] [] enough]
      · simp
      · intro path member
        rw [List.mem_singleton.mp member, listed, Tree.listing_of_ok listed]

end Local

end ChunkStore
