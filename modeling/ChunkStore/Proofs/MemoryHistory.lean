import ChunkStore.Proofs.MemoryTree

/-!
The trees that the operations of the file system in memory can lead to, and what holds of all of
them. Writers stay open between operations and publish whenever they are flushed or closed, also
after their path has been deleted or has become a directory.
-/

namespace ChunkStore.Memory

set_option autoImplicit false

structure Live where
  tree : Tree
  writers : List Writer

/-- One operation of the file system, of its set-up or of an open writer. -/
inductive Step : Live → Live → Prop
  | addFile (live : Live) (path : Path) (contents : Bytes) :
      Step live { live with tree := live.tree.addFile path contents }
  | addDirectory (live : Live) (path : Path) :
      Step live { live with tree := live.tree.ensureDirectories path }
  | failReads (live : Live) (path : Path) :
      Step live { live with tree := live.tree.failReads path }
  | createDirectories (live : Live) (path : Path) (after : Tree)
      (made : live.tree.createDirectories path = .ok after) :
      Step live { live with tree := after }
  | delete (live : Live) (path : Path) : Step live { live with tree := live.tree.delete path }
  | create (live : Live) (path : Path) (after : Tree) (made : live.tree.create path = .ok after) :
      Step live ⟨after, Writer.opened path :: live.writers⟩
  | write (tree : Tree) (front back : List Writer) (writer : Writer) (piece : Bytes) :
      Step ⟨tree, front ++ writer :: back⟩ ⟨tree, front ++ writer.write piece :: back⟩
  | flush (live : Live) (writer : Writer) (isOpen : writer ∈ live.writers) :
      Step live { live with tree := live.tree.publish writer }
  | close (tree : Tree) (front back : List Writer) (writer : Writer) :
      Step ⟨tree, front ++ writer :: back⟩ ⟨tree.publish writer, front ++ back⟩

inductive Run : Live → Prop
  | start : Run ⟨.empty, []⟩
  | next {before after : Live} (earlier : Run before) (step : Step before after) : Run after

/-- Whether a tree comes about by operations of the file system. -/
def Tree.Reachable (tree : Tree) : Prop := ∃ writers, Run ⟨tree, writers⟩

namespace Tree

theorem distinct_add {tree : Tree} (distinct : tree.Distinct) (path : Path) (contents : Bytes) :
    (tree.addFile path contents).Distinct :=
  distinct_put (distinct_parents distinct path) path contents

theorem distinct_step {before after : Live} (step : Step before after)
    (distinct : before.tree.Distinct) : after.tree.Distinct := by
  cases step with
  | addFile _ path contents => exact distinct_add distinct path contents
  | addDirectory _ path => exact distinct_ensure distinct path
  | failReads _ path => exact distinct
  | createDirectories _ path after made =>
      rw [(create_directories_ok made).1]
      exact distinct_ensure distinct path
  | delete _ path => exact distinct_delete distinct path
  | create _ path after made => exact distinct_create distinct made
  | write tree front back writer piece => exact distinct
  | flush _ writer isOpen => exact distinct_put distinct writer.path writer.written
  | close tree front back writer => exact distinct_put distinct writer.path writer.written

theorem distinct_run {live : Live} (run : Run live) : live.tree.Distinct := by
  induction run with
  | start => exact distinct_empty
  | next _ step induction => exact distinct_step step induction

theorem Reachable.distinct {tree : Tree} (reachable : tree.Reachable) : tree.Distinct := by
  obtain ⟨writers, run⟩ := reachable
  exact distinct_run run

/-! What lies above a directory -/

/-- All that lies above a directory is there, but for the roots. -/
def Anchored (tree : Tree) : Prop :=
  ∀ place above, tree.node? place = some .directory → leadsTo above place = true →
    (tree.node? above).isSome

theorem anchored_empty : Anchored empty := by
  intro place above directory _
  cases directory

theorem anchored_put {tree : Tree} (anchored : tree.Anchored) (path : Path) (contents : Bytes) :
    (tree.putFile path contents).Anchored := by
  intro place above directory leads
  rw [node_put] at directory ⊢
  split at directory
  · cases directory
  · split
    · rfl
    · exact anchored place above directory leads

theorem anchored_ensure {tree : Tree} (anchored : tree.Anchored) (path : Path) :
    (tree.ensureDirectories path).Anchored := by
  intro place above directory leads
  rw [node_ensure] at directory ⊢
  cases found : tree.node? place with
  | some node =>
      rw [found, Option.some_or] at directory
      have present := anchored place above (found.trans directory) leads
      rw [Option.isSome_or, present, Bool.true_or]
  | none =>
      rw [found, Option.none_or] at directory
      split at directory
      · rename_i made
        rw [if_pos (leads_to_trans leads made), Option.isSome_or, Option.isSome_some, Bool.or_true]
      · cases directory

theorem anchored_parents {tree : Tree} (anchored : tree.Anchored) (path : Path) :
    (tree.withParents path).Anchored := by
  unfold withParents
  cases path.parent? with
  | none => exact anchored
  | some parent => exact anchored_ensure anchored parent

theorem anchored_delete {tree : Tree} (anchored : tree.Anchored) (path : Path) :
    (tree.delete path).Anchored := by
  intro place above directory leads
  rw [node_delete] at directory ⊢
  split at directory
  · cases directory
  · rename_i outside
    have spared : ¬above.startsWith path = true := by
      intro below
      rw [leadsTo, Bool.and_eq_true, Path.starts_with_iff_parts] at leads
      rw [Path.starts_with_iff_parts] at outside below
      exact outside (below.trans leads.1)
    rw [if_neg spared]
    exact anchored place above directory leads

theorem anchored_step {before after : Live} (step : Step before after)
    (anchored : before.tree.Anchored) : after.tree.Anchored := by
  cases step with
  | addFile _ path contents => exact anchored_put (anchored_parents anchored path) path contents
  | addDirectory _ path => exact anchored_ensure anchored path
  | failReads _ path => exact anchored
  | createDirectories _ path after made =>
      rw [(create_directories_ok made).1]
      exact anchored_ensure anchored path
  | delete _ path => exact anchored_delete anchored path
  | create _ path after made =>
      rw [(create_ok made).1]
      exact anchored_put (anchored_parents anchored path) path []
  | write tree front back writer piece => exact anchored
  | flush _ writer isOpen => exact anchored_put anchored writer.path writer.written
  | close tree front back writer => exact anchored_put anchored writer.path writer.written

theorem anchored_run {live : Live} (run : Run live) : live.tree.Anchored := by
  induction run with
  | start => exact anchored_empty
  | next _ step induction => exact anchored_step step induction

/-- Directories are made from the outside to the inside and go with what they lie in. -/
theorem Reachable.anchored {tree : Tree} (reachable : tree.Reachable) : tree.Anchored := by
  obtain ⟨writers, run⟩ := reachable
  exact anchored_run run

end Tree

end ChunkStore.Memory
