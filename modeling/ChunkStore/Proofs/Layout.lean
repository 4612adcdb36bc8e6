import ChunkStore.Proofs.Listings
import ChunkStore.Proofs.Writing

/-!
What several files leave behind when they are stored in directories of their own under one output.
Each directory lists its files in the order in which they were stored, and the output lists the
directories in the order in which the first file of each was stored.
-/

namespace ChunkStore.Memory.Tree

set_option autoImplicit false

/-- What a test keeps of several blocks when it keeps just one of them whole. -/
theorem filter_flatMap_block {α β : Type} {blocks : List α} (distinct : blocks.Nodup)
    {block : α → List β} {one : α} (member : one ∈ blocks) {keep : β → Bool}
    (own : ∀ element ∈ block one, keep element = true)
    (others : ∀ other ∈ blocks, other ≠ one → ∀ element ∈ block other, keep element = false) :
    (blocks.flatMap block).filter keep = block one := by
  obtain ⟨front, back, split⟩ := List.append_of_mem member
  have nothing (part : List α) (inside : ∀ other ∈ part, other ∈ blocks ∧ other ≠ one) :
      (part.flatMap block).filter keep = [] := by
    apply List.filter_eq_nil_iff.mpr
    intro element inPart
    obtain ⟨other, isOther, inBlock⟩ := List.mem_flatMap.mp inPart
    obtain ⟨there, different⟩ := inside other isOther
    simp [others other there different element inBlock]
  have before : ∀ other ∈ front, other ∈ blocks ∧ other ≠ one := by
    intro other inFront
    refine ⟨split ▸ List.mem_append_left _ inFront, ?_⟩
    rintro rfl
    rw [split, List.nodup_append] at distinct
    exact distinct.2.2 other inFront other List.mem_cons_self rfl
  have behind : ∀ other ∈ back, other ∈ blocks ∧ other ≠ one := by
    intro other inBack
    refine ⟨split ▸ List.mem_append_right _ (List.mem_cons_of_mem _ inBack), ?_⟩
    rintro rfl
    rw [split, List.nodup_append, List.nodup_cons] at distinct
    exact distinct.2.1.1 inBack
  rw [split, List.flatMap_append, List.flatMap_cons, List.filter_append, List.filter_append,
    nothing front before, nothing back behind, List.nil_append, List.append_nil]
  exact List.filter_eq_self.mpr own

theorem node_store_elsewhere {tree after : Tree} {path : Path} {contents : Bytes}
    (stored : tree.store path contents = .ok after) {place : Path}
    (apart : place.same path = false) (beside : leadsAbove place path = false) :
    after.node? place = tree.node? place := by
  rw [node_store stored, if_neg (by simp [apart]), if_neg (by simp [beside]), Option.or_none]

/-! Files of one directory -/

/-- New files that are equally deep are listed in the order in which they are stored. -/
theorem children_store_all {tree after : Tree} {stored : List (Path × Bytes)} (directory : Path)
    (deep : ∀ file ∈ stored, file.1.parts.length = directory.parts.length + 1)
    (apart : stored.Pairwise fun first second => first.1.same second.1 = false)
    (absent : ∀ file ∈ stored, tree.node? file.1 = none)
    (done : tree.storeAll stored = .ok after) :
    after.children directory =
      tree.children directory ++
        (stored.filter fun file => file.1.isChildOf directory).map fun file =>
          .file file.1 file.2.length := by
  induction stored generalizing tree with
  | nil =>
      rw [storeAll, Except.ok.injEq] at done
      rw [done, List.filter_nil, List.map_nil, List.append_nil]
  | cons file rest induction =>
      obtain ⟨path, contents⟩ := file
      obtain ⟨middle, first, others⟩ := store_all_cons_ok done
      obtain ⟨pathApart, restApart⟩ := List.pairwise_cons.mp apart
      have pathDeep : path.parts.length = directory.parts.length + 1 :=
        deep (path, contents) List.mem_cons_self
      have stillAbsent : ∀ file ∈ rest, middle.node? file.1 = none := by
        intro file member
        have fileApart : file.1.same path = false := by
          rw [Path.same_comm]
          exact pathApart file member
        have beside : leadsAbove file.1 path = false := by
          rw [Bool.eq_false_iff]
          intro leads
          have shorter := length_of_leads_above leads
          rw [pathDeep, deep file (List.mem_cons_of_mem _ member)] at shorter
          omega
        rw [node_store_elsewhere first fileApart beside]
        exact absent file (List.mem_cons_of_mem _ member)
      have noneMissing : (tree.missingAbove path).filter (·.isChildOf directory) = [] := by
        apply List.filter_eq_nil_iff.mpr
        intro above member child
        have shorter := length_of_leads_above (mem_missing_above member).1
        rw [Path.length_child child, pathDeep] at shorter
        omega
      rw [induction (fun file member => deep file (List.mem_cons_of_mem _ member)) restApart
        stillAbsent others,
        children_store_new first (absent (path, contents) List.mem_cons_self), noneMissing,
        List.filter_cons]
      by_cases child : path.isChildOf directory = true <;> simp [child]

/-! Directories of one output -/

/-- Of the directories missing above the files of a directory, only that directory itself can lie
directly under the output. -/
theorem missing_directly_under {tree : Tree} {owner output : Path}
    (child : owner.isChildOf output = true) :
    (tree.missing owner).filter (·.isChildOf output) =
      if tree.node? owner = none then [owner] else [] := by
  obtain ⟨higher, ancestors, shorter⟩ := Path.ancestors_cons owner
  have none : (higher.filter fun above =>
      above.isChildOf output && (!above.isRoot && (tree.node? above).isNone)) = [] := by
    apply List.filter_eq_nil_iff.mpr
    intro above member kept
    rw [Bool.and_eq_true] at kept
    have less := shorter above member
    rw [Path.length_child kept.1, Path.length_child child] at less
    omega
  rw [missing, List.filter_reverse, List.filter_filter, ancestors, List.filter_cons, none, child,
    Path.not_root_of_child child]
  cases tree.node? owner <;> simp

theorem leads_above_owned {owner output path : Path} (child : owner.isChildOf output = true)
    (owned : path.parent? = some owner) : leadsAbove owner path = true := by
  rw [← leads_above_parent path owner owner owned, leadsTo, Path.not_root_of_child child,
    (Path.starts_with_iff_parts owner owner).mpr (List.prefix_refl _)]
  rfl

theorem children_store_owned {tree after : Tree} {stored : List (Path × Bytes)}
    {owner output : Path} (child : owner.isChildOf output = true)
    (owned : ∀ file ∈ stored, file.1.parent? = some owner) (absent : tree.node? owner = none)
    (present : stored ≠ []) (done : tree.storeAll stored = .ok after) :
    after.children output = tree.children output ++ [.directory owner] := by
  have added {before next : Tree} {file : Path × Bytes} (member : file ∈ stored)
      (first : before.store file.1 file.2 = .ok next) :
      next.children output =
        before.children output ++ if before.node? owner = none then [.directory owner] else [] := by
    have elsewhere : file.1.isChildOf output = false := by
      rw [Bool.eq_false_iff]
      intro fileChild
      have deep := Path.length_parent (owned file member)
      rw [Path.length_child fileChild, Path.length_child child] at deep
      omega
    rw [children_store_below first elsewhere, missingAbove, owned file member]
    simp only
    rw [missing_directly_under child]
    split <;> rfl
  obtain ⟨file, rest, rfl⟩ := List.exists_cons_of_ne_nil present
  obtain ⟨middle, first, others⟩ := store_all_cons_ok done
  have made : (middle.node? owner).isSome := by
    rw [node_store first, absent, leads_above_owned child (owned file List.mem_cons_self)]
    split <;> rfl
  refine (store_all_keeps (fun now => (now.node? owner).isSome ∧
    now.children output = tree.children output ++ [.directory owner]) ?_ ⟨made, ?_⟩ others).2
  · rintro other member before next ⟨there, listed⟩ second
    have isOwned : other ∈ file :: rest := List.mem_cons_of_mem _ member
    refine ⟨present_store second there, ?_⟩
    rw [added isOwned second, if_neg (Option.isSome_iff_ne_none.mp there), List.append_nil, listed]
  · rw [added List.mem_cons_self first, if_pos absent]

/-- A directory as deep as that of a file that is stored, and apart from it, is as it was. -/
theorem node_store_sibling {tree after : Tree} {path owner other : Path} {contents : Bytes}
    (stored : tree.store path contents = .ok after) (owned : path.parent? = some owner)
    (sameDepth : other.parts.length = owner.parts.length) (apart : owner.same other = false) :
    after.node? other = tree.node? other := by
  have deep := Path.length_parent owned
  have fileApart : other.same path = false := by
    apply Path.not_same_of_length
    omega
  have beside : leadsAbove other path = false := by
    rw [Bool.eq_false_iff, Ne, ← leads_above_parent path _ _ owned, leadsTo, Bool.and_eq_true,
      Path.starts_with_iff_parts]
    rintro ⟨beginning, _⟩
    have same := (Path.same_iff_parts _ _).mpr (beginning.eq_of_length sameDepth)
    rw [Path.same_comm, apart] at same
    exact absurd same (by simp)
  exact node_store_elsewhere stored fileApart beside

/-- Files that are stored directory by directory add these directories to the output in order. -/
theorem children_store_blocks {tree after : Tree} {output : Path} {positions : List Nat}
    {owner : Nat → Path} {block : Nat → List (Path × Bytes)}
    (child : ∀ position ∈ positions, (owner position).isChildOf output = true)
    (apart : positions.Pairwise fun first second => (owner first).same (owner second) = false)
    (owned : ∀ position ∈ positions, ∀ file ∈ block position,
      file.1.parent? = some (owner position))
    (absent : ∀ position ∈ positions, tree.node? (owner position) = none)
    (present : ∀ position ∈ positions, block position ≠ [])
    (done : tree.storeAll (positions.flatMap block) = .ok after) :
    after.children output =
      tree.children output ++ positions.map fun position => .directory (owner position) := by
  induction positions generalizing tree with
  | nil =>
      rw [List.flatMap_nil, storeAll, Except.ok.injEq] at done
      rw [done, List.map_nil, List.append_nil]
  | cons position rest induction =>
      rw [List.flatMap_cons] at done
      obtain ⟨middle, first, others⟩ := store_all_append_ok done
      rw [List.forall_mem_cons] at child owned absent present
      obtain ⟨positionApart, restApart⟩ := List.pairwise_cons.mp apart
      have stillAbsent : ∀ other ∈ rest, middle.node? (owner other) = none := by
        intro other member
        refine store_all_keeps (fun now => now.node? (owner other) = none) ?_
          (absent.2 other member) first
        intro file inBlock before next none stored
        have sameDepth : (owner other).parts.length = (owner position).parts.length := by
          rw [Path.length_child (child.2 other member), Path.length_child child.1]
        rw [node_store_sibling stored (owned.1 file inBlock) sameDepth
          (positionApart other member), none]
      rw [induction child.2 restApart owned.2 stillAbsent present.2 others,
        children_store_owned child.1 owned.1 absent.1 present.1 first, List.map_cons,
        List.append_assoc]
      rfl

theorem node_above_store_all {tree after : Tree} {stored : List (Path × Bytes)} {above : Path}
    (loose : tree.node? above = none ∨ tree.node? above = some .directory)
    (apart : ∀ file ∈ stored, above.same file.1 = false) {file : Path × Bytes}
    (member : file ∈ stored) (leads : leadsAbove above file.1 = true)
    (done : tree.storeAll stored = .ok after) : after.node? above = some .directory := by
  induction stored generalizing tree with
  | nil => exact absurd member (by simp)
  | cons first rest induction =>
      obtain ⟨middle, firstStored, others⟩ := store_all_cons_ok done
      rw [List.forall_mem_cons] at apart
      have made (leads : leadsAbove above first.1 = true) :
          middle.node? above = some .directory := by
        rw [node_store firstStored, if_neg (by simp [apart.1]), if_pos leads]
        rcases loose with none | directory
        · rw [none, Option.none_or]
        · rw [directory, Option.some_or]
      rcases List.mem_cons.mp member with here | later
      · rw [here] at leads
        refine store_all_keeps (fun now => now.node? above = some .directory) ?_ (made leads) others
        intro other otherMember before next directory stored
        rw [node_store stored, if_neg (by simp [apart.2 other otherMember]), directory,
          Option.some_or]
      · refine induction ?_ apart.2 later others
        by_cases leadsFirst : leadsAbove above first.1 = true
        · exact Or.inr (made leadsFirst)
        · rw [node_store_elsewhere firstStored apart.1 (by simpa using leadsFirst)]
          exact loose

end ChunkStore.Memory.Tree
