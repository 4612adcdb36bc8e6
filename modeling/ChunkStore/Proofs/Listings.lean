import ChunkStore.Proofs.MemoryTree

/-!
What a directory lists. Children are listed in the order of creation, so what an operation does to
a listing is told by the entries that it adds: directories on the way to a file that were missing,
and the file itself if it is new.
-/

namespace ChunkStore.Memory.Tree

set_option autoImplicit false

def childEntries (tree : Tree) (directory : Path) : List Entry :=
  tree.entries.filter fun entry => entry.path.isChildOf directory

theorem path_status (entry : Entry) : entry.status.path = entry.path := by
  unfold Entry.status
  split <;> rfl

theorem directory_status (entry : Entry) :
    entry.status.isDirectory = true ↔ entry.node = .directory := by
  unfold Entry.status
  split
  · rename_i node
    rw [node]
    exact ⟨fun _ => rfl, fun _ => rfl⟩
  · rename_i contents node
    rw [node]
    exact ⟨fun impossible => absurd impossible (by simp [Status.file]),
      fun impossible => absurd impossible (by simp)⟩

theorem is_child_of_same {left right base : Path} (same : left.same right = true) :
    left.isChildOf base = right.isChildOf base := by
  have parts := (Path.same_iff_parts left right).mp same
  rw [Bool.eq_iff_iff, Path.is_child_iff, Path.is_child_iff, parts]

theorem present_of_child {tree : Tree} {directory : Path} {status : Status}
    (member : status ∈ tree.children directory) :
    (tree.node? status.path).isSome ∧ status.path.isChildOf directory = true := by
  obtain ⟨entry, kept, rfl⟩ := List.mem_map.mp member
  obtain ⟨there, child⟩ := List.mem_filter.mp kept
  rw [path_status]
  refine ⟨?_, child⟩
  rw [Option.isSome_iff_ne_none]
  intro absent
  have apart := (find_none_iff tree entry.path).mp absent entry there
  rw [Path.same_refl] at apart
  exact absurd apart (by simp)

/-- What the file system lists at a path, nothing where it lists nothing. -/
def listing (tree : Tree) (path : Path) : List Status :=
  match tree.list path with
  | .ok statuses => statuses
  | .error _ => []

theorem listing_of_ok {tree : Tree} {path : Path} {statuses : List Status}
    (listed : tree.list path = .ok statuses) : tree.listing path = statuses := by
  rw [listing, listed]

/-- A directory lists its children, and so does a root where nothing is. A file lists itself, and
nothing else can be listed. -/
theorem list_cases {tree : Tree} {path : Path} {entries : List Status}
    (listed : tree.list path = .ok entries) :
    (entries = tree.children path ∧
      (tree.node? path = some .directory ∨ path.isRoot = true ∧ tree.node? path = none)) ∨
    ∃ contents, tree.node? path = some (.file contents) ∧
      entries = [.file path contents.length] := by
  rw [list] at listed
  cases found : tree.node? path with
  | none =>
      rw [found] at listed
      by_cases root : path.isRoot = true
      · simp only [root, if_true, Except.ok.injEq] at listed
        exact Or.inl ⟨listed.symm, Or.inr ⟨root, rfl⟩⟩
      · simp [root] at listed
  | some node =>
      rw [found] at listed
      cases node with
      | directory => exact Or.inl ⟨(Except.ok.inj listed).symm, Or.inl rfl⟩
      | file contents => exact Or.inr ⟨contents, rfl, (Except.ok.inj listed).symm⟩

theorem entry_of_listed {tree : Tree} {path : Path} {status : Status}
    (member : status ∈ tree.listing path) (directory : status.isDirectory = true) :
    ∃ entry ∈ tree.entries, entry.node = .directory ∧ entry.path = status.path ∧
      entry.path.isChildOf path = true := by
  rw [listing] at member
  cases listed : tree.list path with
  | error error =>
      rw [listed] at member
      exact absurd member List.not_mem_nil
  | ok entries =>
      rw [listed] at member
      rcases list_cases listed with ⟨rfl, _⟩ | ⟨contents, _, rfl⟩
      · obtain ⟨entry, kept, rfl⟩ := List.mem_map.mp member
        obtain ⟨there, child⟩ := List.mem_filter.mp kept
        exact ⟨entry, there, (directory_status entry).mp directory, (path_status entry).symm, child⟩
      · rw [List.mem_singleton.mp member] at directory
        exact absurd directory (by simp [Status.file])

theorem directory_of_listed {tree : Tree} {path directory : Path} {entries : List Status}
    (listed : tree.list path = .ok entries)
    (member : directory ∈ (entries.filter (·.isDirectory)).map (·.path)) :
    directory.isChildOf path = true ∧ (tree.node? directory).isSome := by
  obtain ⟨status, kept, rfl⟩ := List.mem_map.mp member
  obtain ⟨inside, isDirectory⟩ := List.mem_filter.mp kept
  rw [← listing_of_ok listed] at inside
  obtain ⟨entry, there, _, same, child⟩ := entry_of_listed inside isDirectory
  rw [← same, Option.isSome_iff_ne_none]
  apply And.intro child
  intro absent
  have apart := (find_none_iff tree entry.path).mp absent entry there
  rw [Path.same_refl] at apart
  exact absurd apart (by simp)

theorem listed_apart {tree : Tree} (distinct : tree.Distinct) {path : Path}
    {entries : List Status} (listed : tree.list path = .ok entries) :
    (entries.map (·.path.parts)).Nodup := by
  rcases list_cases listed with ⟨rfl, _⟩ | ⟨contents, _, rfl⟩
  · rw [children, List.map_map]
    simp only [Function.comp_def, path_status]
    exact distinct.sublist (List.filter_sublist.map _)
  · exact List.nodup_singleton _

theorem list_directory {tree : Tree} {path : Path} (directory : tree.node? path = some .directory) :
    tree.list path = .ok (tree.children path) := by
  rw [list, directory]

theorem list_of_listed {tree : Tree} (distinct : tree.Distinct) {path : Path} {status : Status}
    (member : status ∈ tree.listing path) (directory : status.isDirectory = true) :
    tree.list status.path = .ok (tree.listing status.path) := by
  obtain ⟨entry, there, node, same, _⟩ := entry_of_listed member directory
  have found : tree.node? status.path = some .directory := by
    rw [← node]
    exact node_of_mem distinct there (by rw [same]; exact Path.same_refl _)
  rw [listing_of_ok (list_directory found), list_directory found]

/-! Making directories -/

theorem children_of_added {tree after : Tree} {places : List Path}
    (added : after.entries = tree.entries ++ places.map (⟨·, .directory⟩)) (directory : Path) :
    after.children directory =
      tree.children directory ++
        (places.filter (·.isChildOf directory)).map Status.directory := by
  rw [children, added, List.filter_append, List.map_append, children, List.filter_map,
    List.map_map]
  rfl

def missingAbove (tree : Tree) (path : Path) : List Path :=
  match path.parent? with
  | some parent => tree.missing parent
  | none => []

theorem entries_parents (tree : Tree) (path : Path) :
    (tree.withParents path).entries =
      tree.entries ++ (tree.missingAbove path).map (⟨·, .directory⟩) := by
  rw [withParents, missingAbove]
  cases path.parent? with
  | none => exact (List.append_nil _).symm
  | some parent => exact entries_ensure tree parent

theorem children_parents (tree : Tree) (path directory : Path) :
    (tree.withParents path).children directory =
      tree.children directory ++
        ((tree.missingAbove path).filter (·.isChildOf directory)).map Status.directory :=
  children_of_added (entries_parents tree path) directory

theorem node_parents_here (tree : Tree) (path : Path) :
    (tree.withParents path).node? path = tree.node? path := by
  simp [node_parents, leadsAbove, Path.same_refl]

theorem mem_missing_above {tree : Tree} {path above : Path}
    (member : above ∈ tree.missingAbove path) :
    leadsAbove above path = true ∧ tree.node? above = none := by
  unfold missingAbove at member
  cases found : path.parent? with
  | none =>
      rw [found] at member
      exact absurd member (by simp)
  | some parent =>
      rw [found] at member
      refine ⟨?_, (mem_missing.mp member).2.2⟩
      rw [← leads_above_parent path parent above found]
      exact leads_of_missing member (Path.same_refl above)

/-! Putting a file -/

theorem entries_put (tree : Tree) (path : Path) (contents : Bytes) :
    (tree.putFile path contents).entries = tree.entries.map (Entry.over path contents) ++
      if (tree.node? path).isSome then [] else [⟨path, .file contents⟩] := by
  by_cases present : (tree.node? path).isSome = true
  · rw [put_present present, if_pos present, List.append_nil]
  · have absent : tree.node? path = none := by simpa using present
    rw [put_absent absent, if_neg present, over_elsewhere absent]

theorem children_put_absent {tree : Tree} {path : Path} (absent : tree.node? path = none)
    (contents : Bytes) (directory : Path) :
    (tree.putFile path contents).children directory =
      tree.children directory ++
        if path.isChildOf directory then [.file path contents.length] else [] := by
  rw [put_absent absent, children, children, List.filter_append, List.map_append]
  congr 1
  by_cases child : path.isChildOf directory = true
  · simp [child, Entry.status]
  · simp [child]

/-- A file changes no listing but that of its directory, and there only its own line. -/
theorem children_put_filter (tree : Tree) (path : Path) (contents : Bytes) (directory : Path)
    (keep : Status → Bool) (rejects : ∀ status : Status, status.path.same path = true →
      status.path.isChildOf directory = true → keep status = false) :
    ((tree.putFile path contents).children directory).filter keep =
      (tree.children directory).filter keep := by
  cases found : tree.node? path with
  | none =>
      rw [children_put_absent found, List.filter_append]
      by_cases child : path.isChildOf directory = true
      · have rejected : keep (.file path contents.length) = false :=
          rejects (.file path contents.length) (Path.same_refl path) child
        simp [child, rejected]
      · simp [child]
  | some node =>
      rw [put_present (by rw [found]; rfl), children, children]
      simp only
      have lines (entries : List Entry) :
          ((((entries.map (Entry.over path contents)).filter fun entry =>
            entry.path.isChildOf directory)).map Entry.status).filter keep =
              ((entries.filter fun entry => entry.path.isChildOf directory).map
                Entry.status).filter keep := by
        induction entries with
        | nil => rfl
        | cons entry rest induction =>
            have kept : (Entry.over path contents entry).path.isChildOf directory =
                entry.path.isChildOf directory := by rw [Entry.path_over]
            simp only [List.map_cons, List.filter_cons, kept]
            by_cases child : entry.path.isChildOf directory = true
            · simp only [child, if_true, List.map_cons, List.filter_cons, induction]
              by_cases same : entry.path.same path = true
              · rw [rejects _ (by rw [path_status, Entry.path_over]; exact same)
                    (by rw [path_status, Entry.path_over]; exact child),
                  rejects _ (by rw [path_status]; exact same) (by rw [path_status]; exact child)]
                rfl
              · have unchanged : Entry.over path contents entry = entry := by
                  rw [Entry.over, if_neg same]
                rw [unchanged]
            · simp only [child]
              exact induction
      exact lines tree.entries

/-! Storing a file -/

/-- A new file is listed last, after the directories that were missing above it. -/
theorem children_store_new {tree after : Tree} {path : Path} {contents : Bytes}
    (stored : tree.store path contents = .ok after) (absent : tree.node? path = none)
    (directory : Path) :
    after.children directory =
      tree.children directory ++
        ((tree.missingAbove path).filter (·.isChildOf directory)).map Status.directory ++
        if path.isChildOf directory then [.file path contents.length] else [] := by
  obtain ⟨made, created, rfl⟩ := store_ok stored
  have still : (tree.withParents path).node? path = none := by
    rw [node_parents_here, absent]
  rw [(create_ok created).1, put_put, children_put_absent still, children_parents]

theorem children_store_filter {tree after : Tree} {path : Path} {contents : Bytes}
    (stored : tree.store path contents = .ok after) (directory : Path) (keep : Status → Bool)
    (rejects : ∀ status : Status, status.path.same path = true →
      status.path.isChildOf directory = true → keep status = false)
    (noneMissing : ∀ above ∈ tree.missingAbove path, above.isChildOf directory = false) :
    (after.children directory).filter keep = (tree.children directory).filter keep := by
  obtain ⟨made, created, rfl⟩ := store_ok stored
  have none : (tree.missingAbove path).filter (·.isChildOf directory) = [] :=
    List.filter_eq_nil_iff.mpr fun above member => by simp [noneMissing above member]
  rw [(create_ok created).1, put_put, children_put_filter _ _ _ _ _ rejects, children_parents, none,
    List.map_nil, List.append_nil]

theorem children_store_below {tree after : Tree} {path : Path} {contents : Bytes}
    (stored : tree.store path contents = .ok after) {directory : Path}
    (elsewhere : path.isChildOf directory = false) :
    after.children directory =
      tree.children directory ++
        ((tree.missingAbove path).filter (·.isChildOf directory)).map Status.directory := by
  obtain ⟨made, created, rfl⟩ := store_ok stored
  have put (now : Tree) : (now.putFile path contents).children directory =
      now.children directory := by
    have whole := children_put_filter now path contents directory (fun _ => true) ?_
    · rwa [List.filter_true, List.filter_true] at whole
    · intro status same child
      rw [is_child_of_same same, elsewhere] at child
      exact absurd child (by simp)
  rw [(create_ok created).1, put_put, put, children_parents]

theorem children_store_elsewhere {tree after : Tree} {path : Path} {contents : Bytes}
    (stored : tree.store path contents = .ok after) {directory : Path}
    (elsewhere : path.isChildOf directory = false)
    (noneMissing : ∀ above ∈ tree.missingAbove path, above.isChildOf directory = false) :
    after.children directory = tree.children directory := by
  have none : (tree.missingAbove path).filter (·.isChildOf directory) = [] :=
    List.filter_eq_nil_iff.mpr fun above member => by simp [noneMissing above member]
  rw [children_store_below stored elsewhere, none, List.map_nil, List.append_nil]

end ChunkStore.Memory.Tree
