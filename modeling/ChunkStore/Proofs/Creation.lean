import ChunkStore.Proofs.ListingOrder

/-!
Making files and directories in memory. Either something on the way is of the wrong kind, and then
the tree stays as it is, or all that is missing above a path is made with it. The check, the making
of the directories and the putting of the file look at the entries one after the other, and here
they are shown to agree.
-/

namespace ChunkStore.Memory

set_option autoImplicit false

open Stateful

namespace Tree

/-! Entries at a place -/

def Has (tree : Tree) (place : Path) (node : Node) : Prop :=
  ∃ entry ∈ tree.entries, entry.path.same place = true ∧ entry.node = node

def HasFile (tree : Tree) (place : Path) : Prop := ∃ contents, tree.Has place (.file contents)

theorem has_iff {tree : Tree} (distinct : tree.Distinct) (place : Path) (node : Node) :
    tree.Has place node ↔ tree.node? place = some node := by
  constructor
  · rintro ⟨entry, member, same, rfl⟩
    exact node_of_mem distinct member same
  · intro found
    cases here : tree.find? place with
    | none =>
        rw [node?, here] at found
        cases found
    | some entry =>
        rw [node_of_find here, Option.some.injEq] at found
        exact ⟨entry, (found_same here).1, (found_same here).2, found⟩

theorem has_file_iff {tree : Tree} (distinct : tree.Distinct) (place : Path) :
    tree.HasFile place ↔ tree.isFile place = true := by
  simp only [HasFile, has_iff distinct, isFile, Option.isSome_iff_exists, contents_of_node]

/-! What making something adds -/

theorem over_missing_above (tree : Tree) (path : Path) (contents : Bytes) :
    ((tree.missingAbove path).map (⟨·, .directory⟩ : Path → Entry)).map (Entry.over path contents) =
      (tree.missingAbove path).map (⟨·, .directory⟩) := by
  rw [List.map_map]
  apply List.map_congr_left
  intro above member
  have proper := (mem_missing_above member).1
  rw [leadsAbove, Bool.and_eq_true, Bool.not_eq_true'] at proper
  exact if_neg (by simp [proper.2])

def entriesWith (tree : Tree) (path : Path) (contents : Bytes) : List Entry :=
  (tree.missingAbove path).map (⟨·, .directory⟩) ++
    if (tree.node? path).isSome then [] else [⟨path, .file contents⟩]

theorem paths_entries_with (tree : Tree) (path : Path) (contents : Bytes) :
    (tree.entriesWith path contents).map Entry.path = tree.madeWith path := by
  rw [entriesWith, List.map_append, List.map_map, madeWith]
  congr 1
  · exact List.map_id _
  · split <;> rfl

theorem entries_make (tree : Tree) (path : Path) (contents : Bytes) :
    ((tree.withParents path).putFile path contents).entries =
      tree.entries.map (Entry.over path contents) ++ tree.entriesWith path contents := by
  rw [entries_put, entries_parents, List.map_append, over_missing_above, node_parents_here,
    List.append_assoc, entriesWith]

/-! The parts of a path -/

theorem ancestors_of_parent {path parent : Path} (found : path.parent? = some parent) :
    path.ancestors = path :: parent.ancestors := by
  rw [Path.ancestors_eq, found]

theorem mem_missing_above_iff {tree : Tree} {path above : Path} (inner : path.isRoot = false) :
    above ∈ tree.missingAbove path ↔
      above ∈ path.ancestors.tail ∧ above.isRoot = false ∧ tree.node? above = none := by
  rcases Path.exists_parent inner with ⟨parent, found⟩
  rw [missingAbove, found, ancestors_of_parent found, List.tail_cons]
  exact mem_missing

theorem ancestor_of_made {tree : Tree} {path place : Path} (inner : path.isRoot = false)
    (member : place ∈ tree.madeWith path) : place ∈ path.ancestors ∧ place.isRoot = false := by
  rcases List.mem_append.mp member with above | here
  · rcases (mem_missing_above_iff inner).mp above with ⟨isAncestor, inside, _⟩
    exact ⟨List.mem_of_mem_tail isAncestor, inside⟩
  · split at here
    · cases here
    · rw [List.mem_singleton.mp here, Path.ancestors_eq]
      exact ⟨List.mem_cons_self, inner⟩

theorem leads_to_of_ancestor {path above : Path} (member : above ∈ path.ancestors)
    (inner : above.isRoot = false) : leadsTo above path = true := by
  rw [leadsTo, Bool.and_eq_true, Path.starts_with_iff_parts, Bool.not_eq_true']
  exact ⟨Path.ancestor_is_beginning path above member, inner⟩

theorem node_ensure_ancestor {tree : Tree} {path above : Path} (member : above ∈ path.ancestors)
    (inner : above.isRoot = false) (noFile : tree.isFile above = false) :
    (tree.ensureDirectories path).node? above = some .directory := by
  rw [node_ensure, if_pos (leads_to_of_ancestor member inner)]
  cases found : tree.node? above with
  | none => rfl
  | some node =>
      cases node with
      | directory => rfl
      | file contents =>
          rw [isFile, contents_of_node.mpr found] at noFile
          cases noFile

/-! All or nothing -/

/-- What making something at a path leaves: the entries that there were, changed at most where they
are, and behind them those of the places on the path that had none, the outermost first. All above
the path are directories then, and the path is what was to be made. -/
structure Made (tree after : Tree) (path : Path) (change : Entry → Entry) (node : Node) : Prop where
  grown : ∃ added : List Entry, after.entries = tree.entries.map change ++ added ∧
    (∀ entry ∈ added, entry.path ∈ path.ancestors ∧ entry.path.isRoot = false ∧
      tree.node? entry.path = none) ∧
    added.Pairwise fun outer inner => outer.path.parts.length < inner.path.parts.length
  above : ∀ place ∈ path.ancestors.tail, place.isRoot = false → after.Has place .directory
  here : after.Has path node
  failing : after.failing = tree.failing

/-- Something fails just when it is blocked, with one kind of error and the tree as it was, or it
makes what it should. -/
structure AllOrNothing {α : Type} (tree : Tree) (blocked : Prop) (made : Tree → Prop)
    (outcome : Except IoError α × Tree) : Prop where
  fails_iff : (∃ error, outcome.1 = .error error) ↔ blocked
  refused : ∀ error, outcome.1 = .error error → error.kind = .alreadyExists ∧ outcome.2 = tree
  granted : ∀ value, outcome.1 = .ok value → made outcome.2

section outcomes

variable {α : Type} {tree : Tree} {blocked : Prop} {made : Tree → Prop}

theorem AllOrNothing.of_blocked (isBlocked : blocked) (text : String) :
    AllOrNothing tree blocked made
      ((.error (.alreadyExists text), tree) : Except IoError α × Tree) where
  fails_iff := iff_of_true ⟨_, rfl⟩ isBlocked
  refused error same := ⟨Except.error.inj same ▸ rfl, rfl⟩
  granted value same := by cases same

theorem AllOrNothing.of_made (free : ¬ blocked) (value : α) {after : Tree} (isMade : made after) :
    AllOrNothing tree blocked made (.ok value, after) where
  fails_iff := iff_of_false (by simp) free
  refused error same := by cases same
  granted _ _ := isMade

end outcomes

theorem create_directories_cases (tree : Tree) (path : Path) :
    (∃ file ∈ path.ancestors, tree.isFile file = true ∧
      tree.createDirectories path = .error (.alreadyExists s!"{file.text} is a file")) ∨
    ((∀ above ∈ path.ancestors, tree.isFile above = false) ∧
      tree.createDirectories path = .ok (tree.ensureDirectories path)) := by
  unfold createDirectories blockingFile?
  cases blocked : path.ancestors.find? tree.isFile with
  | some file =>
      exact .inl ⟨file, List.mem_of_find?_eq_some blocked, List.find?_some blocked, rfl⟩
  | none => exact .inr ⟨by simpa using blocked, rfl⟩

theorem made_directories {tree : Tree} (distinct : tree.Distinct) {path : Path}
    (inner : path.isRoot = false) (free : ∀ above ∈ path.ancestors, tree.isFile above = false) :
    Made tree (tree.ensureDirectories path) path id .directory := by
  have madeAt (place : Path) (member : place ∈ path.ancestors) (inside : place.isRoot = false) :
      (tree.ensureDirectories path).Has place .directory := by
    rw [has_iff (distinct_ensure distinct path)]
    exact node_ensure_ancestor member inside (free place member)
  have entries : (tree.ensureDirectories path).entries =
      tree.entries.map id ++ (tree.missing path).map (⟨·, .directory⟩) := by
    rw [List.map_id, entries_ensure]
  refine ⟨⟨_, entries, ?_, List.pairwise_map.mpr (missing_deepens tree path)⟩, ?_, ?_, rfl⟩
  · intro entry member
    rcases List.mem_map.mp member with ⟨above, isMissing, rfl⟩
    exact mem_missing.mp isMissing
  · intro place member inside
    exact madeAt place (List.mem_of_mem_tail member) inside
  · apply madeAt path _ inner
    rw [Path.ancestors_eq]
    exact List.mem_cons_self

theorem made_file {tree : Tree} (distinct : tree.Distinct) {path : Path}
    (inner : path.isRoot = false)
    (free : ∀ above ∈ path.ancestors.tail, tree.isFile above = false) :
    Made tree ((tree.withParents path).putFile path []) path (Entry.over path []) (.file []) := by
  have stillDistinct := distinct_put (distinct_parents distinct path) path []
  rcases Path.exists_parent inner with ⟨parent, found⟩
  rcases Path.ancestors_cons path with ⟨higher, ancestors, shorter⟩
  have isHigher : parent.ancestors = higher := by
    rw [ancestors_of_parent found] at ancestors
    exact List.tail_eq_of_cons_eq ancestors
  rw [ancestors, List.tail_cons] at free
  refine ⟨⟨_, entries_make tree path [], ?_, ?_⟩, ?_, ?_, ?_⟩
  · intro entry member
    have made : entry.path ∈ tree.madeWith path := by
      rw [← paths_entries_with tree path []]
      exact List.mem_map_of_mem member
    rcases ancestor_of_made inner made with ⟨isAncestor, inside⟩
    exact ⟨isAncestor, inside, absent_of_made made⟩
  · have deepens := made_with_deepens tree path
    rwa [← paths_entries_with tree path [], List.pairwise_map] at deepens
  · intro place member inside
    rw [ancestors, List.tail_cons] at member
    have apart := Path.not_same_of_length (Nat.ne_of_lt (shorter place member))
    rw [has_iff stillDistinct, node_put, if_neg (by simp [apart]), withParents, found]
    exact node_ensure_ancestor (isHigher ▸ member) inside (free place member)
  · rw [has_iff stillDistinct, node_put, if_pos (Path.same_refl path)]
  · rw [failing_put, failing_parents]

/-- Making directories, or a file with those above it, does all of it or nothing. Directories are
blocked by a file at the path or above it; a file is blocked by a directory at the path and by a
file above it. -/
theorem creation_all_or_nothing {tree : Tree} (reachable : tree.Reachable) {path : Path}
    (inner : path.isRoot = false) :
    AllOrNothing tree (∃ place ∈ path.ancestors, tree.HasFile place)
        (fun after => Made tree after path id .directory)
        (perform (files.createDirectories path) tree) ∧
      AllOrNothing tree
        (tree.Has path .directory ∨ ∃ place ∈ path.ancestors.tail, tree.HasFile place)
        (fun after => Made tree after path (Entry.over path []) (.file []))
        (perform (files.create path) tree) := by
  have distinct := reachable.distinct
  have unfiled {places : List Path} (free : ∀ place ∈ places, tree.isFile place = false) :
      ¬ ∃ place ∈ places, tree.HasFile place := by
    rintro ⟨place, member, isFile⟩
    rw [has_file_iff distinct, free place member] at isFile
    cases isFile
  constructor
  · rw [perform_create_directories]
    rcases create_directories_cases tree path with ⟨file, member, isFile, refused⟩ | ⟨free, made⟩
    · rw [refused]
      exact .of_blocked ⟨file, member, (has_file_iff distinct file).mpr isFile⟩ _
    · rw [made]
      exact .of_made (unfiled free) () (made_directories distinct inner free)
  · rcases Path.exists_parent inner with ⟨parent, found⟩
    have tail : path.ancestors.tail = parent.ancestors := by
      rw [ancestors_of_parent found, List.tail_cons]
    rw [perform_create, create, has_iff distinct]
    by_cases directory : tree.node? path = some .directory
    · rw [if_pos directory]
      exact .of_blocked (.inl directory) _
    · rw [if_neg directory, found, tail]
      simp only
      rcases create_directories_cases tree parent with
        ⟨file, member, isFile, refused⟩ | ⟨free, made⟩
      · rw [refused]
        exact .of_blocked (.inr ⟨file, member, (has_file_iff distinct file).mpr isFile⟩) _
      · rw [made]
        have isMade := made_file distinct inner (tail ▸ free)
        rw [withParents, found] at isMade
        exact .of_made (not_or.mpr ⟨directory, unfiled free⟩) _ isMade

def oneFile : Tree := Tree.empty.addFile (.ofText "/a/f") [1]

theorem one_file_creation :
    (∃ error, perform (files.create (.ofText "/a/f/x/y")) oneFile = (.error error, oneFile) ∧
      error.kind = .alreadyExists) ∧
    ∃ writer after, perform (files.create (.ofText "/a/b/c")) oneFile = (.ok writer, after) ∧
      Made oneFile after (.ofText "/a/b/c") (Entry.over (.ofText "/a/b/c") []) (.file []) := by
  have reachable : oneFile.Reachable := ⟨[], .next .start (.addFile _ _ _)⟩
  constructor
  · have creation := (@creation_all_or_nothing oneFile reachable (.ofText "/a/f/x/y")
      (by decide)).2
    have isFile : oneFile.HasFile (.ofText "/a/f") :=
      (has_file_iff reachable.distinct _).mpr (by decide +kernel)
    rcases creation.fails_iff.mpr (.inr ⟨.ofText "/a/f", by decide +kernel, isFile⟩) with
      ⟨error, failed⟩
    rcases creation.refused error failed with ⟨kind, unchanged⟩
    exact ⟨error, Prod.ext failed unchanged, kind⟩
  · have creation := (@creation_all_or_nothing oneFile reachable (.ofText "/a/b/c") (by decide)).2
    have granted : (perform (files.create (.ofText "/a/b/c")) oneFile).1.isOk = true := by
      decide +kernel
    rcases exists_ok granted with ⟨writer, done⟩
    exact ⟨writer, _, Prod.ext done rfl, creation.granted writer done⟩

end Tree

end ChunkStore.Memory
