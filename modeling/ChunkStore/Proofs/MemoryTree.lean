import ChunkStore.FileSystem.Memory
import ChunkStore.Proofs.Paths
import Mathlib.Data.List.Nodup

/-!
The tree of files in memory, seen as what is at each place. Each operation is described by what
is at a place after it, so that nothing else looks at the list of entries unless the order of
creation matters.
-/

namespace ChunkStore.Memory.Tree

set_option autoImplicit false

/-! Looking up -/

theorem find_congr (tree : Tree) {left right : Path} (same : left.same right = true) :
    tree.find? left = tree.find? right := by
  have asked : (fun entry : Entry => entry.path.same left) =
      fun entry => entry.path.same right := by
    funext entry
    rw [Bool.eq_iff_iff, Path.same_iff_parts, Path.same_iff_parts,
      (Path.same_iff_parts left right).mp same]
  rw [find?, find?, asked]

theorem node_congr (tree : Tree) {left right : Path} (same : left.same right = true) :
    tree.node? left = tree.node? right := by
  rw [node?, node?, find_congr tree same]

theorem node_of_find {tree : Tree} {path : Path} {entry : Entry}
    (found : tree.find? path = some entry) : tree.node? path = some entry.node := by
  rw [node?, found, Option.map_some]

theorem find_none_iff (tree : Tree) (path : Path) :
    tree.node? path = none ↔ ∀ entry ∈ tree.entries, entry.path.same path = false := by
  simp [node?, find?]

theorem found_same {tree : Tree} {path : Path} {entry : Entry}
    (found : tree.find? path = some entry) :
    entry ∈ tree.entries ∧ entry.path.same path = true :=
  ⟨List.mem_of_find?_eq_some found, by simpa using List.find?_some found⟩

theorem contents_of_node {tree : Tree} {path : Path} {contents : Bytes} :
    tree.contents? path = some contents ↔ tree.node? path = some (.file contents) := by
  unfold contents?
  cases tree.node? path with
  | none => simp
  | some node => cases node <;> simp [Node.contents?]

/-! Putting a file -/

@[simp] theorem failing_put (tree : Tree) (path : Path) (contents : Bytes) :
    (tree.putFile path contents).failing = tree.failing := by
  unfold putFile
  split <;> rfl

theorem node_put (tree : Tree) (path other : Path) (contents : Bytes) :
    (tree.putFile path contents).node? other =
      if other.same path then some (.file contents) else tree.node? other := by
  unfold putFile
  split
  · rename_i present
    have asked (entry : Entry) : (if entry.path.same path = true then
        { entry with node := Node.file contents } else entry).path = entry.path := by
      split <;> rfl
    simp only [node?, find?, List.find?_map, Option.map_map, Function.comp_def, asked]
    by_cases same : other.same path = true
    · obtain ⟨entry, found⟩ := Option.isSome_iff_exists.mp present
      have there := (found_same found).2
      rw [← find_congr tree same, find?] at found
      simp [found, there, same]
    · rw [if_neg same]
      cases found : tree.entries.find? fun entry => entry.path.same other with
      | none => rfl
      | some entry =>
          have elsewhere : ¬entry.path.same path = true := by
            intro there
            have here := (@found_same tree _ _ found).2
            exact same (Path.same_trans (Path.same_comm _ _ ▸ here) there)
          simp [elsewhere]
  · rename_i absent
    simp only [node?, find?, List.find?_append, List.find?_cons, List.find?_nil]
    by_cases same : other.same path = true
    · have none : tree.entries.find? (fun entry => entry.path.same other) = none := by
        have missing := find_congr tree same
        rw [find?] at missing
        rw [missing]
        simpa using absent
      rw [none, Path.same_comm path other, same]
      rfl
    · have other_way : path.same other = false := by
        rw [Path.same_comm]
        simpa using same
      simp [other_way, same]

/-! Making directories -/

def missing (tree : Tree) (path : Path) : List Path :=
  (path.ancestors.filter fun above => !above.isRoot && (tree.node? above).isNone).reverse

theorem ensure_eq (tree : Tree) (path : Path) :
    tree.ensureDirectories path =
      { tree with entries := tree.entries ++ (tree.missing path).map (⟨·, .directory⟩) } := rfl

theorem entries_ensure (tree : Tree) (path : Path) :
    (tree.ensureDirectories path).entries =
      tree.entries ++ (tree.missing path).map (⟨·, .directory⟩) := rfl

theorem mem_missing {tree : Tree} {path above : Path} :
    above ∈ tree.missing path ↔
      above ∈ path.ancestors ∧ above.isRoot = false ∧ tree.node? above = none := by
  simp [missing]

/-- Whether a place lies at a path or above it without being a root. -/
def leadsTo (above path : Path) : Bool := path.startsWith above && !above.isRoot

theorem leads_to_trans {first second third : Path} (lower : leadsTo first second = true)
    (upper : leadsTo second third = true) : leadsTo first third = true := by
  rw [leadsTo, Bool.and_eq_true, Path.starts_with_iff_parts] at *
  exact ⟨lower.1.trans upper.1, lower.2⟩

theorem exists_missing {tree : Tree} {path other : Path} (leads : leadsTo other path = true)
    (absent : tree.node? other = none) : ∃ above ∈ tree.missing path, above.same other = true := by
  rw [leadsTo, Bool.and_eq_true, Path.starts_with_iff_parts, Bool.not_eq_true'] at leads
  have notRoot := leads.2
  rw [Bool.eq_false_iff, Ne, Path.is_root_iff, not_or] at notRoot
  obtain ⟨above, member, parts⟩ :=
    Path.exists_ancestor path other.parts leads.1 notRoot.1 notRoot.2
  have same : above.same other = true := (Path.same_iff_parts _ _).mpr parts
  refine ⟨above, mem_missing.mpr ⟨member, ?_, ?_⟩, same⟩
  · rw [Path.is_root_congr same, leads.2]
  · rw [node_congr tree same, absent]

theorem leads_of_missing {tree : Tree} {path other above : Path}
    (member : above ∈ tree.missing path) (same : above.same other = true) :
    leadsTo other path = true := by
  obtain ⟨ancestor, notRoot, _⟩ := mem_missing.mp member
  rw [leadsTo, Bool.and_eq_true, Path.starts_with_iff_parts, Bool.not_eq_true',
    ← (Path.same_iff_parts _ _).mp same, ← Path.is_root_congr same]
  exact ⟨Path.ancestor_is_beginning path above ancestor, notRoot⟩

theorem node_ensure (tree : Tree) (path other : Path) :
    (tree.ensureDirectories path).node? other =
      (tree.node? other).or (if leadsTo other path then some .directory else none) := by
  rw [node?, find?, entries_ensure, List.find?_append]
  cases found : tree.find? other with
  | some entry =>
      unfold find? at found
      simp [found, node?, find?]
  | none =>
      have absent : tree.node? other = none := by rw [node?, found]; rfl
      unfold find? at found
      rw [found, absent, Option.none_or, Option.none_or]
      by_cases leads : leadsTo other path = true
      · obtain ⟨above, member, same⟩ := exists_missing leads absent
        rw [if_pos leads, List.find?_map]
        cases search : (tree.missing path).find? (fun above => above.same other) with
        | none => exact absurd same (by simpa using List.find?_eq_none.mp search above member)
        | some first =>
            change (((tree.missing path).find? fun above => above.same other).map _).map _ = _
            rw [search]
            rfl
      · rw [if_neg leads, Option.map_eq_none_iff, List.find?_eq_none]
        intro entry member same
        obtain ⟨above, inside, rfl⟩ := List.mem_map.mp member
        exact leads (leads_of_missing inside same)

/-! Creating and storing -/

def withParents (tree : Tree) (path : Path) : Tree :=
  match path.parent? with
  | some parent => tree.ensureDirectories parent
  | none => tree

@[simp] theorem failing_parents (tree : Tree) (path : Path) :
    (tree.withParents path).failing = tree.failing := by
  unfold withParents
  cases path.parent? <;> rfl

/-- Whether a place lies above a path without being a root. -/
def leadsAbove (above path : Path) : Bool := leadsTo above path && !above.same path

theorem leads_above_iff (above path : Path) :
    leadsAbove above path = true ↔
      above.parts <+: path.parts ∧ above.isRoot = false ∧ above.parts ≠ path.parts := by
  simp only [leadsAbove, leadsTo, Bool.and_eq_true, Path.starts_with_iff_parts, Bool.not_eq_true',
    Bool.eq_false_iff, Ne, Path.same_iff_parts, and_assoc]

theorem length_of_leads_above {above path : Path} (leads : leadsAbove above path = true) :
    above.parts.length < path.parts.length := by
  obtain ⟨beginning, _, different⟩ := (leads_above_iff _ _).mp leads
  apply Nat.lt_of_le_of_ne beginning.length_le
  intro equal
  exact different (beginning.eq_of_length equal)

theorem leads_above_parent (path parent other : Path) (found : path.parent? = some parent) :
    leadsTo other parent = leadsAbove other path := by
  rcases Path.parent_cases path with ⟨none, _⟩ | ⟨above, here, notRoot, dropped⟩
  · rw [none] at found
    exact absurd found (by simp)
  rw [here, Option.some.injEq] at found
  rw [found] at dropped
  rw [leadsAbove, leadsTo, leadsTo, Bool.eq_iff_iff]
  simp only [Bool.and_eq_true, Path.starts_with_iff_parts, Bool.not_eq_true', Bool.eq_false_iff,
    Ne, Path.same_iff_parts, dropped]
  constructor
  · rintro ⟨beginning, inner⟩
    refine ⟨⟨beginning.trans (List.dropLast_prefix _), inner⟩, ?_⟩
    intro whole
    have short := beginning.length_le
    have present : path.parts ≠ [] := by
      intro empty
      rw [Bool.eq_false_iff, Ne, Path.is_root_iff] at notRoot
      exact notRoot (Or.inl empty)
    have positive := List.length_pos_iff.mpr present
    rw [whole, List.length_dropLast] at short
    omega
  · rintro ⟨⟨beginning, inner⟩, proper⟩
    exact ⟨Path.prefix_dropLast_of_ne beginning proper, inner⟩

theorem leads_above_root (path other : Path) (none : path.parent? = none) :
    leadsAbove other path = false := by
  rcases Path.parent_cases path with ⟨_, isRoot⟩ | ⟨above, here, _, _⟩
  · rw [leadsAbove, leadsTo, Bool.eq_false_iff]
    simp only [Ne, Bool.and_eq_true, Path.starts_with_iff_parts, Bool.not_eq_true', not_and]
    rintro ⟨beginning, inner⟩
    rw [Path.is_root_of_beginning beginning isRoot] at inner
    exact absurd inner (by simp)
  · rw [here] at none
    exact absurd none (by simp)

theorem node_parents (tree : Tree) (path other : Path) :
    (tree.withParents path).node? other =
      (tree.node? other).or (if leadsAbove other path then some .directory else none) := by
  unfold withParents
  cases found : path.parent? with
  | none => simp [leads_above_root path other found]
  | some parent => rw [node_ensure, leads_above_parent path parent other found]

theorem create_directories_ok {tree after : Tree} {path : Path}
    (made : tree.createDirectories path = .ok after) :
    after = tree.ensureDirectories path ∧ ∀ above ∈ path.ancestors, tree.isFile above = false := by
  unfold createDirectories at made
  cases blocked : tree.blockingFile? path with
  | some file => simp [blocked] at made
  | none =>
      rw [blocked] at made
      refine ⟨(Except.ok.inj made).symm, ?_⟩
      intro above member
      simpa using List.find?_eq_none.mp blocked above member

theorem create_ok {tree after : Tree} {path : Path} (made : tree.create path = .ok after) :
    after = (tree.withParents path).putFile path [] ∧ tree.node? path ≠ some .directory := by
  unfold create at made
  by_cases directory : tree.node? path = some .directory
  · rw [if_pos directory] at made
    exact absurd made (by simp)
  rw [if_neg directory] at made
  refine ⟨?_, directory⟩
  unfold withParents
  cases found : path.parent? with
  | none =>
      rw [found] at made
      exact (Except.ok.inj made).symm
  | some parent =>
      rw [found] at made
      cases parents : tree.createDirectories parent with
      | error error =>
          simp only [parents] at made
          exact absurd made (by simp [Except.map])
      | ok made' =>
          simp only [parents] at made
          rw [← Except.ok.inj made, (create_directories_ok parents).1]

theorem create_unblocked {tree after : Tree} {path parent : Path}
    (made : tree.create path = .ok after) (found : path.parent? = some parent) :
    ∀ above ∈ parent.ancestors, tree.isFile above = false := by
  rw [create, if_neg (create_ok made).2, found] at made
  cases parents : tree.createDirectories parent with
  | error error =>
      simp only [parents] at made
      exact absurd made (by simp [Except.map])
  | ok middle => exact (create_directories_ok parents).2

/-- Creates a file, with the directories above it, and publishes its contents. -/
def store (tree : Tree) (path : Path) (contents : Bytes) : Except IoError Tree :=
  (tree.create path).map (·.putFile path contents)

theorem store_ok {tree after : Tree} {path : Path} {contents : Bytes}
    (stored : tree.store path contents = .ok after) :
    ∃ made, tree.create path = .ok made ∧ after = made.putFile path contents := by
  unfold store at stored
  cases made : tree.create path with
  | error error =>
      rw [made] at stored
      exact absurd stored (by simp [Except.map])
  | ok made' =>
      rw [made] at stored
      exact ⟨made', rfl, (Except.ok.inj stored).symm⟩

@[simp] theorem failing_create {tree after : Tree} {path : Path}
    (made : tree.create path = .ok after) : after.failing = tree.failing := by
  rw [(create_ok made).1, failing_put, failing_parents]

theorem failing_store {tree after : Tree} {path : Path} {contents : Bytes}
    (stored : tree.store path contents = .ok after) : after.failing = tree.failing := by
  obtain ⟨made, created, rfl⟩ := store_ok stored
  rw [failing_put, failing_create created]

theorem node_create {tree after : Tree} {path : Path} (made : tree.create path = .ok after)
    (other : Path) :
    after.node? other =
      if other.same path then some (.file [])
      else (tree.node? other).or (if leadsAbove other path then some .directory else none) := by
  rw [(create_ok made).1, node_put, node_parents]

/-- After a file is stored it is at its place, the places above it are directories unless
something else was there, and everything else is as it was. -/
theorem node_store {tree after : Tree} {path : Path} {contents : Bytes}
    (stored : tree.store path contents = .ok after) (other : Path) :
    after.node? other =
      if other.same path then some (.file contents)
      else (tree.node? other).or (if leadsAbove other path then some .directory else none) := by
  obtain ⟨made, created, rfl⟩ := store_ok stored
  rw [node_put, node_create created]
  split <;> rfl

theorem present_store {tree after : Tree} {path : Path} {contents : Bytes}
    (stored : tree.store path contents = .ok after) {place : Path}
    (there : (tree.node? place).isSome) : (after.node? place).isSome := by
  obtain ⟨node, found⟩ := Option.isSome_iff_exists.mp there
  rw [node_store stored, found]
  split <;> rfl

theorem contents_store {tree after : Tree} {path : Path} {contents : Bytes}
    (stored : tree.store path contents = .ok after) (other : Path) :
    after.contents? other =
      if other.same path then some contents else tree.contents? other := by
  rw [contents?, contents?, node_store stored]
  split
  · rfl
  · cases tree.node? other with
    | some node => rfl
    | none => split <;> rfl

/-! Writing over a file

A file that is there keeps its place in the list of entries, so writing over it can be done before
or after anything that happens elsewhere. -/

def Entry.over (path : Path) (contents : Bytes) (entry : Entry) : Entry :=
  if entry.path.same path then { entry with node := .file contents } else entry

@[simp] theorem Entry.path_over (path : Path) (contents : Bytes) (entry : Entry) :
    (Entry.over path contents entry).path = entry.path := by
  unfold Entry.over
  split <;> rfl

theorem put_present {tree : Tree} {path : Path} (present : (tree.node? path).isSome)
    (contents : Bytes) :
    tree.putFile path contents =
      { tree with entries := tree.entries.map (Entry.over path contents) } := by
  rw [putFile, if_pos (by simpa [node?] using present)]
  rfl

theorem put_absent {tree : Tree} {path : Path} (absent : tree.node? path = none)
    (contents : Bytes) :
    tree.putFile path contents =
      { tree with entries := tree.entries ++ [⟨path, .file contents⟩] } := by
  have missing : tree.find? path = none := by simpa [node?] using absent
  rw [putFile, if_neg (by simp [missing])]

theorem over_elsewhere {tree : Tree} {path : Path} (absent : tree.node? path = none)
    (contents : Bytes) : tree.entries.map (Entry.over path contents) = tree.entries := by
  refine (List.map_congr_left ?_).trans (List.map_id _)
  intro entry member
  rw [Entry.over, (find_none_iff tree path).mp absent entry member]
  rfl

theorem filter_put (tree : Tree) (path : Path) (contents : Bytes) (keep : Path → Bool)
    (rejects : ∀ other : Path, other.same path = true → keep other = false) :
    ((tree.putFile path contents).entries.filter fun entry => keep entry.path) =
      tree.entries.filter fun entry => keep entry.path := by
  cases found : tree.node? path with
  | none =>
      rw [put_absent found, List.filter_append]
      simp [rejects path (Path.same_refl path)]
  | some node =>
      rw [put_present (by rw [found]; rfl), List.filter_map]
      simp only [Function.comp_def, Entry.path_over]
      refine (List.map_congr_left ?_).trans (List.map_id _)
      intro entry member
      have kept := (List.mem_filter.mp member).2
      have apart : ¬entry.path.same path = true := by
        intro here
        rw [rejects entry.path here] at kept
        exact absurd kept (by simp)
      rw [Entry.over, if_neg apart]
      rfl

theorem put_put (tree : Tree) (path : Path) (first second : Bytes) :
    (tree.putFile path first).putFile path second = tree.putFile path second := by
  have present : ((tree.putFile path first).node? path).isSome := by
    rw [node_put, if_pos (Path.same_refl path)]
    rfl
  rw [put_present present]
  cases found : tree.node? path with
  | none =>
      rw [put_absent found, put_absent found, List.map_append, over_elsewhere found]
      simp [Entry.over, Path.same_refl]
  | some node =>
      rw [put_present (by rw [found]; rfl), put_present (by rw [found]; rfl), List.map_map]
      congr 1
      apply List.map_congr_left
      intro entry _
      rw [Function.comp_apply, Entry.over, Entry.path_over, Entry.over, Entry.over]
      split <;> rfl

theorem put_comm {tree : Tree} {path other : Path} (present : (tree.node? path).isSome)
    (apart : other.same path = false) (first second : Bytes) :
    (tree.putFile path first).putFile other second =
      (tree.putFile other second).putFile path first := by
  have still : ((tree.putFile other second).node? path).isSome := by
    rw [node_put]
    split
    · rfl
    · exact present
  have same : (tree.putFile path first).node? other = tree.node? other := by
    rw [node_put, if_neg (by simp [apart])]
  rw [put_present still]
  cases found : tree.node? other with
  | none =>
      rw [put_absent (same.trans found), put_absent found, put_present present, List.map_append]
      simp [Entry.over, apart]
  | some node =>
      have presentOther : (tree.node? other).isSome := by rw [found]; rfl
      have presentAfter : ((tree.putFile path first).node? other).isSome := by
        rw [same]
        exact presentOther
      rw [put_present presentAfter, put_present present, put_present presentOther]
      simp only [List.map_map]
      congr 1
      apply List.map_congr_left
      intro entry _
      simp only [Function.comp_apply, Entry.over]
      by_cases here : entry.path.same path = true
      · have elsewhere : entry.path.same other = false := by
          rw [Bool.eq_false_iff]
          intro there
          rw [Path.same_comm] at there
          rw [Path.same_trans there here] at apart
          exact absurd apart (by simp)
        simp [here, elsewhere]
      · by_cases there : entry.path.same other = true <;> simp [here, there]

theorem missing_put {tree : Tree} {path : Path} (present : (tree.node? path).isSome)
    (contents : Bytes) (other : Path) :
    (tree.putFile path contents).missing other = tree.missing other := by
  rw [missing, missing]
  congr 1
  apply List.filter_congr
  intro above _
  rw [node_put]
  by_cases here : above.same path = true
  · rw [node_congr tree here, if_pos here, Option.isNone_eq_false_iff.mpr present]
    rfl
  · rw [if_neg here]

theorem ensure_put {tree : Tree} {path : Path} (present : (tree.node? path).isSome)
    (contents : Bytes) (other : Path) :
    (tree.putFile path contents).ensureDirectories other =
      (tree.ensureDirectories other).putFile path contents := by
  have still : ((tree.ensureDirectories other).node? path).isSome := by
    rw [node_ensure]
    obtain ⟨node, found⟩ := Option.isSome_iff_exists.mp present
    rw [found]
    rfl
  have added : ((tree.missing other).map (Entry.mk · .directory)).map (Entry.over path contents) =
      (tree.missing other).map (Entry.mk · .directory) := by
    rw [List.map_map]
    apply List.map_congr_left
    intro above member
    have apart : ¬above.same path = true := by
      intro here
      have absent := (mem_missing.mp member).2.2
      rw [node_congr tree here] at absent
      rw [absent] at present
      exact absurd present (by simp)
    simp [Entry.over, apart]
  rw [put_present still, ensure_eq (tree.putFile path contents), missing_put present,
    entries_ensure, List.map_append, added, put_present present]
  rfl

theorem create_put {tree : Tree} {path other : Path} {before : Bytes}
    (present : tree.node? path = some (.file before)) (apart : other.same path = false)
    (contents : Bytes) :
    (tree.putFile path contents).create other =
      (tree.create other).map (·.putFile path contents) := by
  have isSome : (tree.node? path).isSome := by rw [present]; rfl
  have sameNode : (tree.putFile path contents).node? other = tree.node? other := by
    rw [node_put, if_neg (by simp [apart])]
  -- What is in the way of the other file does not depend on what this one holds.
  have sameFiles (above : Path) :
      (tree.putFile path contents).isFile above = tree.isFile above := by
    rw [isFile, isFile, contents?, contents?, node_put]
    split
    · rename_i here
      rw [node_congr tree here, present]
      rfl
    · rfl
  rw [create, create, sameNode]
  by_cases directory : tree.node? other = some .directory
  · rw [if_pos directory, if_pos directory]
    rfl
  rw [if_neg directory, if_neg directory]
  cases other.parent? with
  | none =>
      simp only [Except.map]
      rw [put_comm isSome apart]
  | some parent =>
      have blocked : (tree.putFile path contents).blockingFile? parent =
          tree.blockingFile? parent := by
        rw [blockingFile?, blockingFile?]
        exact congrArg (fun rule => parent.ancestors.find? rule) (funext sameFiles)
      simp only [createDirectories, blocked]
      cases tree.blockingFile? parent with
      | some file => rfl
      | none =>
          have still : ((tree.ensureDirectories parent).node? path).isSome := by
            rw [node_ensure, present]
            rfl
          simp only [Except.map]
          rw [ensure_put isSome, put_comm still apart]

/-! Deleting -/

theorem node_delete (tree : Tree) (path other : Path) :
    (tree.delete path).node? other =
      if other.startsWith path then none else tree.node? other := by
  have below (entry : Entry) (same : entry.path.same other = true) :
      entry.path.startsWith path = other.startsWith path := by
    rw [Bool.eq_iff_iff, Path.starts_with_iff_parts, Path.starts_with_iff_parts,
      (Path.same_iff_parts _ _).mp same]
  by_cases inside : other.startsWith path = true
  · rw [if_pos inside, find_none_iff]
    intro entry member
    rw [Bool.eq_false_iff]
    intro same
    obtain ⟨_, kept⟩ := List.mem_filter.mp member
    rw [below entry same, inside] at kept
    exact absurd kept (by simp)
  · rw [if_neg inside, node?, node?, find?, find?, delete, List.find?_filter]
    congr 2
    funext entry
    by_cases same : entry.path.same other = true
    · have outside := below entry same
      rw [Bool.eq_false_iff.mpr inside] at outside
      simp [same, outside]
    · simp [same]

/-! No place has two entries -/

def Distinct (tree : Tree) : Prop := (tree.entries.map (·.path.parts)).Nodup

theorem distinct_empty : Distinct empty := List.nodup_nil

theorem distinct_put {tree : Tree} (distinct : tree.Distinct) (path : Path) (contents : Bytes) :
    (tree.putFile path contents).Distinct := by
  rw [Distinct, putFile]
  split
  · have kept : (tree.entries.map fun entry => if entry.path.same path = true then
        { entry with node := Node.file contents } else entry).map (·.path.parts) =
          tree.entries.map (·.path.parts) := by
      rw [List.map_map]
      apply List.map_congr_left
      intro entry _
      simp only [Function.comp_apply]
      split <;> rfl
    simp only [kept]
    exact distinct
  · rename_i absent
    rw [List.map_append, List.nodup_append]
    refine ⟨distinct, by simp, ?_⟩
    intro left inOld right inNew same
    obtain ⟨entry, member, rfl⟩ := List.mem_map.mp inOld
    have new : right = path.parts := by simpa using inNew
    have missing : tree.node? path = none := by
      rw [node?, Option.map_eq_none_iff]
      simpa using absent
    have elsewhere := (find_none_iff tree path).mp missing entry member
    rw [Bool.eq_false_iff, Ne, Path.same_iff_parts] at elsewhere
    exact elsewhere (same.trans new)

theorem distinct_ensure {tree : Tree} (distinct : tree.Distinct) (path : Path) :
    (tree.ensureDirectories path).Distinct := by
  rw [Distinct, entries_ensure, List.map_append, List.nodup_append]
  refine ⟨distinct, ?_, ?_⟩
  · rw [List.map_map, missing, List.map_reverse, List.nodup_reverse, List.Nodup, List.pairwise_map]
    apply ((Path.ancestors_shrink path).sublist List.filter_sublist).imp
    intro lower higher shorter same
    simp only [Function.comp_apply] at same
    rw [same] at shorter
    exact absurd shorter (by omega)
  · intro left inOld right inNew same
    obtain ⟨entry, member, rfl⟩ := List.mem_map.mp inOld
    obtain ⟨added, inside, rfl⟩ := List.mem_map.mp inNew
    obtain ⟨above, absent, rfl⟩ := List.mem_map.mp inside
    have elsewhere := (find_none_iff tree above).mp (mem_missing.mp absent).2.2 entry member
    rw [Bool.eq_false_iff, Ne, Path.same_iff_parts] at elsewhere
    exact elsewhere same

theorem distinct_parents {tree : Tree} (distinct : tree.Distinct) (path : Path) :
    (tree.withParents path).Distinct := by
  unfold withParents
  cases path.parent? with
  | none => exact distinct
  | some parent => exact distinct_ensure distinct parent

theorem distinct_create {tree after : Tree} (distinct : tree.Distinct) {path : Path}
    (made : tree.create path = .ok after) : after.Distinct := by
  rw [(create_ok made).1]
  exact distinct_put (distinct_parents distinct path) path []

theorem distinct_delete {tree : Tree} (distinct : tree.Distinct) (path : Path) :
    (tree.delete path).Distinct :=
  distinct.sublist (List.filter_sublist.map _)

theorem node_of_mem {tree : Tree} (distinct : tree.Distinct) {entry : Entry}
    (member : entry ∈ tree.entries) {path : Path} (same : entry.path.same path = true) :
    tree.node? path = some entry.node := by
  cases found : tree.find? path with
  | none =>
      have absent : tree.node? path = none := by rw [node?, found]; rfl
      rw [(find_none_iff tree path).mp absent entry member] at same
      exact absurd same (by simp)
  | some other =>
      obtain ⟨there, otherSame⟩ := found_same found
      have parts : other.path.parts = entry.path.parts := by
        rw [Path.same_iff_parts] at same otherSame
        rw [same, otherSame]
      rw [node_of_find found, List.inj_on_of_nodup_map distinct there member parts]

end ChunkStore.Memory.Tree
