import ChunkStore.Proofs.Listings
import ChunkStore.Proofs.MemoryRuns

/-!
The order of a listing. Whatever the operations of a run were and whichever writers were open at a
time, a directory lists the children that are present, each once, in the order in which they last
came to be there: a file that is written over keeps its place, and one that is deleted and made
again comes last.
-/

namespace ChunkStore.Memory

set_option autoImplicit false

/-! Places -/

namespace Tree

def places (tree : Tree) : List Path := tree.entries.map (·.path)

theorem present_iff (tree : Tree) (path : Path) :
    (tree.node? path).isSome ↔ ∃ place ∈ tree.places, place.same path = true := by
  rw [Option.isSome_iff_ne_none, Ne, find_none_iff]
  simp [places]

theorem present_of_place {tree : Tree} {place : Path} (member : place ∈ tree.places) :
    (tree.node? place).isSome :=
  (present_iff tree place).mpr ⟨place, member, Path.same_refl place⟩

theorem places_put (tree : Tree) (path : Path) (contents : Bytes) :
    (tree.putFile path contents).places =
      tree.places ++ if (tree.node? path).isSome then [] else [path] := by
  rw [places, entries_put, List.map_append, List.map_map, places]
  congr 1
  · apply List.map_congr_left
    intro entry _
    exact Entry.path_over path contents entry
  · split <;> rfl

theorem places_of_added {tree after : Tree} {more : List Path}
    (added : after.entries = tree.entries ++ more.map (⟨·, .directory⟩)) :
    after.places = tree.places ++ more := by
  rw [places, added, List.map_append, List.map_map, places]
  congr 1
  exact List.map_id _

theorem places_ensure (tree : Tree) (path : Path) :
    (tree.ensureDirectories path).places = tree.places ++ tree.missing path :=
  places_of_added (entries_ensure tree path)

theorem places_parents (tree : Tree) (path : Path) :
    (tree.withParents path).places = tree.places ++ tree.missingAbove path :=
  places_of_added (entries_parents tree path)

theorem missing_deepens (tree : Tree) (path : Path) :
    (tree.missing path).Pairwise fun outer inner => outer.parts.length < inner.parts.length := by
  rw [missing, List.pairwise_reverse]
  exact (Path.ancestors_shrink path).sublist List.filter_sublist

theorem missing_above_deepens (tree : Tree) (path : Path) :
    (tree.missingAbove path).Pairwise fun outer inner =>
      outer.parts.length < inner.parts.length := by
  rw [missingAbove]
  cases path.parent? with
  | none => exact .nil
  | some parent => exact missing_deepens tree parent

theorem list_of_open {tree : Tree} {directory : Path}
    (isOpen : tree.node? directory = some .directory ∨
      directory.isRoot = true ∧ tree.isFile directory = false) :
    tree.list directory = .ok (tree.children directory) := by
  rcases isOpen with isDirectory | ⟨isRoot, noFile⟩
  · exact list_directory isDirectory
  · rw [isFile, contents?] at noFile
    rw [list]
    cases found : tree.node? directory with
    | none => simp [isRoot]
    | some node =>
        cases node with
        | directory => rfl
        | file contents =>
            rw [found] at noFile
            exact absurd noFile (by simp [Node.contents?])

/-! What one operation does to the places -/

/-- Some places are left, in their order, and those that are new come behind them, each of them
deeper than the one before. -/
def Grows (before after : Tree) : Prop :=
  ∃ kept new : List Path, after.places = kept ++ new ∧ kept.Sublist before.places ∧
    (∀ place ∈ new, before.node? place = none) ∧
    new.Pairwise fun outer inner => outer.parts.length < inner.parts.length

theorem Grows.refl (tree : Tree) : Grows tree tree :=
  ⟨tree.places, [], (List.append_nil _).symm, .refl _, by simp, .nil⟩

theorem grows_put (tree : Tree) (path : Path) (contents : Bytes) :
    Grows tree (tree.putFile path contents) := by
  refine ⟨_, _, places_put tree path contents, .refl _, ?_, ?_⟩
  · intro place member
    split at member
    · exact absurd member (by simp)
    · rename_i absent
      rw [List.mem_singleton.mp member]
      simpa using absent
  · split <;> simp

theorem grows_ensure (tree : Tree) (path : Path) : Grows tree (tree.ensureDirectories path) :=
  ⟨_, _, places_ensure tree path, .refl _, fun _ member => (mem_missing.mp member).2.2,
    missing_deepens tree path⟩

def madeWith (tree : Tree) (path : Path) : List Path :=
  tree.missingAbove path ++ if (tree.node? path).isSome then [] else [path]

theorem absent_of_made {tree : Tree} {path place : Path} (member : place ∈ tree.madeWith path) :
    tree.node? place = none := by
  rcases List.mem_append.mp member with above | here
  · exact (mem_missing_above above).2
  · split at here
    · cases here
    · rename_i absent
      rw [List.mem_singleton.mp here]
      simpa using absent

theorem made_with_deepens (tree : Tree) (path : Path) :
    (tree.madeWith path).Pairwise fun outer inner => outer.parts.length < inner.parts.length := by
  rw [madeWith, List.pairwise_append]
  refine ⟨missing_above_deepens tree path, by split <;> simp, ?_⟩
  intro outer isAbove inner isHere
  split at isHere
  · cases isHere
  · rw [List.mem_singleton.mp isHere]
    exact length_of_leads_above (mem_missing_above isAbove).1

theorem grows_make (tree : Tree) (path : Path) (contents : Bytes) :
    Grows tree ((tree.withParents path).putFile path contents) := by
  refine ⟨tree.places, tree.madeWith path, ?_, .refl _, ?_, made_with_deepens tree path⟩
  · rw [places_put, places_parents, node_parents_here, List.append_assoc, madeWith]
  · intro place member
    exact absent_of_made member

theorem grows_delete (tree : Tree) (path : Path) : Grows tree (tree.delete path) :=
  ⟨(tree.delete path).places, [], (List.append_nil _).symm, List.filter_sublist.map _, by simp,
    .nil⟩

end Tree

namespace Running

open Past Memory.Tree

theorem grows_step (running : Running) (operation : Operation) :
    Grows running.tree (running.step operation).tree := by
  have effect := step_effect running operation
  generalize running.step operation = next at effect
  cases effect with
  | addFile path contents => exact grows_make _ path contents
  | addDirectory path => exact grows_ensure _ path
  | failReads path => exact .refl _
  | create path tree made =>
      rw [(create_ok made).1]
      exact grows_make _ path []
  | createDirectories path tree made =>
      rw [(create_directories_ok made).1]
      exact grows_ensure _ path
  | delete path => exact grows_delete _ path
  | write => exact .refl _
  | flush number writer isOpen => exact grows_put _ _ _
  | close number writer isOpen => exact grows_put _ _ _
  | refused => exact .refl _

/-! Arrivals -/

def treeAt (operations : List Operation) (moment : Nat) : Tree :=
  (after (operations.take moment)).tree

/-- A place last went from absent to present by the operation of a moment: nothing was there before
it, and something was there ever after. -/
structure Arrived (operations : List Operation) (path : Path) (moment : Nat) : Prop where
  within : moment < operations.length
  absent : (treeAt operations moment).node? path = none
  present : ∀ later, moment < later → later ≤ operations.length →
    ((treeAt operations later).node? path).isSome

def ArrivedBefore (operations : List Operation) (earlier later : Path) : Prop :=
  ∃ first second, Arrived operations earlier first ∧ Arrived operations later second ∧
    first < second

variable {operations : List Operation} {operation : Operation} {path : Path} {moment : Nat}

theorem tree_at_concat (early : moment ≤ operations.length) :
    treeAt (operations ++ [operation]) moment = treeAt operations moment := by
  rw [treeAt, treeAt, List.take_append_of_le_length early]

theorem tree_at_end (operations : List Operation) :
    treeAt operations operations.length = (after operations).tree := by
  rw [treeAt, List.take_length]

theorem tree_at_last :
    treeAt (operations ++ [operation]) (operations.length + 1) =
      (after (operations ++ [operation])).tree := by
  have whole := tree_at_end (operations ++ [operation])
  rwa [List.length_append, List.length_singleton] at whole

theorem Arrived.still (arrived : Arrived operations path moment)
    (present : ((after (operations ++ [operation])).tree.node? path).isSome) :
    Arrived (operations ++ [operation]) path moment where
  within := by
    rw [List.length_append]
    exact Nat.lt_add_right _ arrived.within
  absent := by
    rw [tree_at_concat (Nat.le_of_lt arrived.within)]
    exact arrived.absent
  present later after bound := by
    rw [List.length_append, List.length_singleton] at bound
    by_cases early : later ≤ operations.length
    · rw [tree_at_concat early]
      exact arrived.present later after early
    · have last : later = operations.length + 1 := by omega
      rw [last, tree_at_last]
      exact present

theorem Arrived.now (absent : (after operations).tree.node? path = none)
    (present : ((after (operations ++ [operation])).tree.node? path).isSome) :
    Arrived (operations ++ [operation]) path operations.length where
  within := by simp
  absent := by
    rw [tree_at_concat (Nat.le_refl _), tree_at_end]
    exact absent
  present later after bound := by
    rw [List.length_append, List.length_singleton] at bound
    have last : later = operations.length + 1 := by omega
    rw [last, tree_at_last]
    exact present

/-- Every place of a run has arrived, and of two that are equally deep the one that arrived first
stands first. -/
structure InOrder (operations : List Operation) : Prop where
  arrived : ∀ place ∈ (after operations).tree.places, ∃ moment, Arrived operations place moment
  ordered : (after operations).tree.places.Pairwise fun earlier later =>
    earlier.parts.length = later.parts.length → ArrivedBefore operations earlier later

theorem in_order_step (order : InOrder operations) (operation : Operation) :
    InOrder (operations ++ [operation]) := by
  obtain ⟨kept, new, places, sublist, absent, deepens⟩ :=
    grows_step (after operations) operation
  rw [← after_concat] at places
  have present (place : Path) (member : place ∈ kept ++ new) :
      ((after (operations ++ [operation])).tree.node? place).isSome :=
    present_of_place (places ▸ member)
  have fromKept (place : Path) (member : place ∈ kept) {moment : Nat}
      (arrived : Arrived operations place moment) :
      Arrived (operations ++ [operation]) place moment :=
    arrived.still (present place (List.mem_append_left _ member))
  have fromNew (place : Path) (member : place ∈ new) :
      Arrived (operations ++ [operation]) place operations.length :=
    .now (absent place member) (present place (List.mem_append_right _ member))
  constructor
  · intro place member
    rw [places] at member
    rcases List.mem_append.mp member with inKept | inNew
    · obtain ⟨moment, arrived⟩ := order.arrived place (sublist.subset inKept)
      exact ⟨moment, fromKept place inKept arrived⟩
    · exact ⟨_, fromNew place inNew⟩
  · rw [places, List.pairwise_append]
    refine ⟨?_, ?_, ?_⟩
    · apply (order.ordered.sublist sublist).imp_of_mem
      intro earlier later inEarlier inLater before deep
      obtain ⟨first, second, arrived, other, less⟩ := before deep
      exact ⟨first, second, fromKept _ inEarlier arrived, fromKept _ inLater other, less⟩
    · -- no two of the new places are equally deep
      apply deepens.imp
      intro outer inner shorter deep
      omega
    · intro earlier inKept later inNew _
      obtain ⟨moment, arrived⟩ := order.arrived earlier (sublist.subset inKept)
      exact ⟨moment, _, fromKept _ inKept arrived, fromNew later inNew, arrived.within⟩

theorem in_order (operations : List Operation) : InOrder operations := by
  induction operations using List.reverseRecOn with
  | nil => exact ⟨by simp [after, start, places, empty], .nil⟩
  | append_singleton operations operation induction => exact in_order_step induction operation

/-! Listings -/

/-- What a directory lists after a run: exactly the children that are present, each once, and in
the order of their arrival. -/
structure Lists (operations : List Operation) (directory : Path) (statuses : List Status) :
    Prop where
  present : ∀ status ∈ statuses, status.path.isChildOf directory = true ∧
    ∃ node, (after operations).tree.node? status.path = some node ∧
      status = Entry.status ⟨status.path, node⟩
  complete : ∀ place : Path, place.isChildOf directory = true →
    ((after operations).tree.node? place).isSome →
      ∃ status ∈ statuses, status.path.same place = true
  once : statuses.Pairwise fun earlier later => earlier.path.same later.path = false
  ordered : statuses.Pairwise fun earlier later =>
    ArrivedBefore operations earlier.path later.path

theorem lists_children (operations : List Operation) (directory : Path) :
    Lists operations directory ((after operations).tree.children directory) where
  present status member := by
    obtain ⟨entry, kept, rfl⟩ := List.mem_map.mp member
    obtain ⟨there, child⟩ := List.mem_filter.mp kept
    rw [path_status]
    exact ⟨child, entry.node,
      node_of_mem (reachable_after operations).distinct there (Path.same_refl _), rfl⟩
  complete place child isPresent := by
    obtain ⟨node, found⟩ := Option.isSome_iff_exists.mp isPresent
    rw [node?, Option.map_eq_some_iff] at found
    obtain ⟨entry, isFound, _⟩ := found
    obtain ⟨there, same⟩ := found_same isFound
    refine ⟨entry.status, List.mem_map.mpr ⟨entry, ?_, rfl⟩, by rw [path_status]; exact same⟩
    rw [List.mem_filter, is_child_of_same same]
    exact ⟨there, child⟩
  once := by
    rw [children, List.pairwise_map]
    have distinct := (reachable_after operations).distinct
    rw [Distinct, List.Nodup, List.pairwise_map] at distinct
    apply (distinct.sublist List.filter_sublist).imp
    intro earlier later different
    rw [path_status, path_status, Bool.eq_false_iff, Ne, Path.same_iff_parts]
    exact different
  ordered := by
    rw [children, List.pairwise_map]
    have order := (in_order operations).ordered
    rw [places, List.pairwise_map] at order
    apply (order.sublist List.filter_sublist).imp_of_mem
    intro earlier later inEarlier inLater before
    rw [path_status, path_status]
    apply before
    rw [Path.length_child (List.mem_filter.mp inEarlier).2,
      Path.length_child (List.mem_filter.mp inLater).2]

/-- After any run no place has two entries, a place holds what was last published there unless it
was deleted since, and a directory lists the children that are present in the order in which they
came. -/
theorem tree_follows_history (operations : List Operation) :
    (after operations).tree.Distinct ∧
    (∀ (path : Path) (contents : Bytes),
      (after operations).tree.contents? path = some contents ↔
        ∃ place, lastEvent? (after operations).past path = some (.published place contents)) ∧
    ∀ directory : Path, (after operations).tree.node? directory = some .directory ∨
        directory.isRoot = true ∧ (after operations).tree.isFile directory = false →
      ∃ statuses, (after operations).tree.list directory = .ok statuses ∧
        Lists operations directory statuses := by
  refine ⟨(reachable_after operations).distinct, ?_, ?_⟩
  · intro path contents
    rw [(faithful_after operations).contents, contents_at_iff]
  · intro directory isOpen
    exact ⟨_, list_of_open isOpen, lists_children operations directory⟩

/-- Two writers on one file, and one file that is deleted and made again. -/
def interleaved : List Operation :=
  [.create (.ofText "/d/f"), .create (.ofText "/d/g"), .create (.ofText "/d//f"), .write 0 [1],
    .write 2 [2], .flush 2, .delete (.ofText "/d/g"), .write 0 [3], .close 0, .create (.ofText "d"),
    .create (.ofText "/d/h"), .addFile (.ofText "/d/g") [4], .flush 2]

/-- The writer that published last decides the file, which keeps its position, and the file that
was made again comes last. -/
theorem interleaved_listed :
    ((after interleaved).tree.contents? (.ofText "/d/f") = some [2] ∧
      ∃ place, lastEvent? (after interleaved).past (.ofText "/d/f") =
        some (.published place [2])) ∧
    (after interleaved).tree.node? (.ofText "/d") = some .directory ∧
      ∃ statuses, (after interleaved).tree.list (.ofText "/d") = .ok statuses ∧
        statuses.map (·.path.text) = ["/d/f", "/d/h", "/d/g"] ∧
          Lists interleaved (.ofText "/d") statuses := by
  obtain ⟨-, published, listed⟩ := tree_follows_history interleaved
  have contents : (after interleaved).tree.contents? (.ofText "/d/f") = some [2] := by
    decide +kernel
  have isDirectory : (after interleaved).tree.node? (.ofText "/d") = some .directory := by
    decide +kernel
  have names : ((after interleaved).tree.list (.ofText "/d")).map (List.map (·.path.text)) =
      .ok ["/d/f", "/d/h", "/d/g"] := by
    decide +kernel
  obtain ⟨statuses, isListed, lists⟩ := listed _ (.inl isDirectory)
  rw [isListed, Except.map, Except.ok.injEq] at names
  exact ⟨⟨contents, (published _ _).mp contents⟩, isDirectory, statuses, isListed, names, lists⟩

end Running

end ChunkStore.Memory
