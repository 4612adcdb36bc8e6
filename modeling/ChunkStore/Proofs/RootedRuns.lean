import ChunkStore.Proofs.ListingOrder

/-!
When the files in memory stay a tree. Every call keeps each entry in a root or in a directory that
is there, but for the publication of a writer: it puts a file wherever the path of the writer is by
then. So a run stays a tree exactly as long as each publication finds a place that can take a file,
which it does when nothing is deleted from above a writer that is open.
-/

namespace ChunkStore.Memory

set_option autoImplicit false

/-! Trees by what is at each place -/

namespace Tree

/-- Whether the directory above a place is there, the roots always being. -/
def HasRoom (tree : Tree) (place : Path) : Prop :=
  ∀ parent, place.parent? = some parent →
    parent.isRoot = true ∨ tree.node? parent = some .directory

theorem has_room_congr {tree : Tree} {place other : Path} (same : place.same other = true)
    (room : tree.HasRoom place) : tree.HasRoom other := by
  intro parent found
  rw [Path.same_comm] at same
  obtain ⟨above, foundAbove, sameParent⟩ := Path.parent_congr same found
  rw [← Path.is_root_congr sameParent, ← node_congr tree sameParent]
  exact room above foundAbove

theorem rooted_iff (tree : Tree) :
    tree.Rooted ↔ ∀ place, (tree.node? place).isSome → tree.HasRoom place := by
  constructor
  · intro rooted place present
    obtain ⟨node, found⟩ := Option.isSome_iff_exists.mp present
    rw [node?, Option.map_eq_some_iff] at found
    obtain ⟨entry, isFound, _⟩ := found
    obtain ⟨member, same⟩ := found_same isFound
    exact has_room_congr same (rooted entry member)
  · intro room entry member
    exact room entry.path (present_of_place (List.mem_map_of_mem member))

/-- Whether a file can be put at a place and leave a tree: the directory above it is there, and
nothing lies in the place itself. -/
structure Admits (tree : Tree) (path : Path) : Prop where
  room : tree.HasRoom path
  bare : ∀ place : Path, place.isChildOf path = true → tree.node? place = none

theorem has_room_put {tree : Tree} {path place : Path} (contents : Bytes)
    (apart : ∀ parent, place.parent? = some parent → parent.same path = false) :
    (tree.putFile path contents).HasRoom place ↔ tree.HasRoom place := by
  apply forall_congr'
  intro parent
  apply forall_congr'
  intro found
  rw [node_put, if_neg (by simp [apart parent found])]

theorem directory_of_child {tree : Tree} (rooted : tree.Rooted) {path place : Path}
    (notRoot : path.isRoot = false) (child : place.isChildOf path = true)
    (present : (tree.node? place).isSome) : tree.node? path = some .directory := by
  rw [rooted_iff] at rooted
  obtain ⟨parent, found, same⟩ := Path.parent_of_child child
  rcases rooted place present parent found with root | directory
  · rw [Path.is_root_congr same, notRoot] at root
    exact absurd root (by simp)
  · rwa [node_congr tree same] at directory

theorem rooted_put_iff {tree : Tree} (rooted : tree.Rooted) {path : Path}
    (notRoot : path.isRoot = false) (contents : Bytes) :
    (tree.putFile path contents).Rooted ↔ tree.Admits path := by
  have own : (tree.putFile path contents).HasRoom path ↔ tree.HasRoom path :=
    has_room_put contents fun parent found => Path.parent_not_same found
  constructor
  · intro after
    constructor
    · have present : ((tree.putFile path contents).node? path).isSome := by
        rw [node_put, if_pos (Path.same_refl path)]
        rfl
      exact own.mp ((rooted_iff _).mp after path present)
    · intro place child
      by_contra there
      have present : ((tree.putFile path contents).node? place).isSome := by
        rw [node_put]
        split
        · rfl
        · exact Option.isSome_iff_ne_none.mpr there
      have directory := directory_of_child after notRoot child present
      rw [node_put, if_pos (Path.same_refl path)] at directory
      exact absurd directory (by simp)
  · intro admits
    rw [rooted_iff] at rooted ⊢
    intro place present
    by_cases here : place.same path = true
    · rw [Path.same_comm] at here
      exact has_room_congr here (own.mpr admits.room)
    · rw [node_put, if_neg here] at present
      refine (has_room_put contents ?_).mpr (rooted place present)
      intro parent found
      rw [Bool.eq_false_iff]
      intro same
      have child := Path.is_child_of_parent found
      rw [Path.is_child_congr same] at child
      rw [admits.bare place child] at present
      exact absurd present (by simp)

theorem admits_file {tree : Tree} (rooted : tree.Rooted) {path : Path}
    (notRoot : path.isRoot = false) (isFile : tree.isFile path = true) : tree.Admits path := by
  obtain ⟨contents, found⟩ := Option.isSome_iff_exists.mp isFile
  rw [contents_of_node] at found
  refine ⟨(rooted_iff tree).mp rooted path (by rw [found]; rfl), ?_⟩
  intro place child
  by_contra there
  have directory :=
    directory_of_child rooted notRoot child (Option.isSome_iff_ne_none.mpr there)
  rw [found] at directory
  exact absurd directory (by simp)

theorem rooted_empty : Rooted empty := by
  intro entry member
  exact absurd member (by simp [empty])

theorem directory_of_leads {tree : Tree} {path place : Path}
    (unblocked : ∀ above ∈ path.ancestors, tree.isFile above = false)
    (leads : leadsTo place path = true) :
    (tree.ensureDirectories path).node? place = some .directory := by
  have beginning := leads
  rw [leadsTo, Bool.and_eq_true, Path.starts_with_iff_parts, Bool.not_eq_true',
    Bool.eq_false_iff, Ne, Path.is_root_iff, not_or] at beginning
  obtain ⟨above, member, parts⟩ :=
    Path.exists_ancestor path place.parts beginning.1 beginning.2.1 beginning.2.2
  have noFile := unblocked above member
  rw [isFile, contents?, node_congr tree ((Path.same_iff_parts _ _).mpr parts)] at noFile
  rw [node_ensure, if_pos leads]
  cases found : tree.node? place with
  | none => rfl
  | some node =>
      cases node with
      | directory => rfl
      | file contents =>
          rw [found] at noFile
          exact absurd noFile (by simp [Node.contents?])

theorem rooted_ensure {tree : Tree} (rooted : tree.Rooted) {path : Path}
    (unblocked : ∀ above ∈ path.ancestors, tree.isFile above = false) :
    (tree.ensureDirectories path).Rooted := by
  rw [rooted_iff] at rooted ⊢
  intro place present parent found
  by_cases before : (tree.node? place).isSome = true
  · rcases rooted place before parent found with root | directory
    · exact Or.inl root
    · right
      rw [node_ensure, directory]
      rfl
  · by_cases leads : leadsTo place path = true
    · by_cases root : parent.isRoot = true
      · exact Or.inl root
      · right
        apply directory_of_leads unblocked
        rw [leadsTo, Bool.and_eq_true, Path.starts_with_iff_parts] at leads ⊢
        refine ⟨?_, by simpa using root⟩
        rw [(Path.parts_parent found).2]
        exact (List.dropLast_prefix _).trans leads.1
    · have absent : tree.node? place = none := by simpa using before
      rw [node_ensure, absent, if_neg leads] at present
      exact absurd present (by simp)

theorem rooted_create_directories {tree after : Tree} (rooted : tree.Rooted) {path : Path}
    (made : tree.createDirectories path = .ok after) : after.Rooted := by
  obtain ⟨rfl, unblocked⟩ := create_directories_ok made
  exact rooted_ensure rooted unblocked

theorem rooted_create {tree after : Tree} (rooted : tree.Rooted) {path : Path}
    (notRoot : path.isRoot = false) (made : tree.create path = .ok after) : after.Rooted := by
  obtain ⟨parent, found⟩ := Path.exists_parent notRoot
  have unblocked := create_unblocked made found
  have parents : tree.withParents path = tree.ensureDirectories parent := by
    rw [withParents, found]
  obtain ⟨shape, noDirectory⟩ := create_ok made
  rw [shape, rooted_put_iff (parents ▸ rooted_ensure rooted unblocked) notRoot]
  constructor
  · intro other isOther
    rw [found, Option.some.injEq] at isOther
    subst isOther
    by_cases root : parent.isRoot = true
    · exact Or.inl root
    · right
      rw [parents]
      apply directory_of_leads unblocked
      rw [leadsTo, Bool.and_eq_true, Path.starts_with_iff_parts]
      exact ⟨List.prefix_rfl, by simpa using root⟩
  · intro place child
    have length := Path.length_child child
    have notAbove : leadsAbove place path = false := by
      rw [Bool.eq_false_iff, Ne, leads_above_iff]
      rintro ⟨beginning, _, _⟩
      have shorter := beginning.length_le
      omega
    rw [node_parents, notAbove]
    -- a child that was there before would have had a directory at the path
    by_contra there
    have before : (tree.node? place).isSome := by
      rw [Option.isSome_iff_ne_none]
      intro absent
      exact there (by rw [absent]; rfl)
    exact noDirectory (directory_of_child rooted notRoot child before)

theorem rooted_delete {tree : Tree} (rooted : tree.Rooted) (path : Path) :
    (tree.delete path).Rooted := by
  rw [rooted_iff] at rooted ⊢
  intro place present parent found
  rw [node_delete] at present
  by_cases inside : place.startsWith path = true
  · rw [if_pos inside] at present
    exact absurd present (by simp)
  · rw [if_neg inside] at present
    rcases rooted place present parent found with root | directory
    · exact Or.inl root
    · right
      have outside : ¬parent.startsWith path = true := by
        rw [Path.starts_with_iff_parts] at inside ⊢
        intro starts
        rw [(Path.parts_parent found).2] at starts
        exact inside (starts.trans (List.dropLast_prefix _))
      rw [node_delete, if_neg outside, directory]

/-! What a tree is good for -/

theorem directory_above {tree : Tree} (rooted : tree.Rooted) {place other : Path}
    (present : (tree.node? other).isSome) (above : leadsAbove place other = true) :
    tree.node? place = some .directory := by
  rw [rooted_iff] at rooted
  induction other using Path.parent_induction with
  | root other _ none =>
      rw [leads_above_root other place none] at above
      exact absurd above (by simp)
  | step other parent found _ dropped induction =>
      rw [← leads_above_parent other parent place found] at above
      rcases rooted other present parent found with root | directory
      · rw [leadsTo, Bool.and_eq_true, Path.starts_with_iff_parts, Bool.not_eq_true'] at above
        rw [Path.is_root_of_beginning above.1 root] at above
        exact absurd above.2 (by simp)
      · by_cases here : place.same parent = true
        · rw [node_congr tree here, directory]
        · apply induction (by rw [directory]; rfl)
          rw [leadsAbove, above, Bool.true_and, Bool.not_eq_true']
          simpa using here

/-- What listings lead to from the roots. -/
inductive Found (tree : Tree) : Path → Prop
  | root (path : Path) (isRoot : path.isRoot = true) : Found tree path
  | listed (directory : Path) (status : Status) (found : Found tree directory)
      (member : status ∈ tree.listing directory) : Found tree status.path

theorem status_listed {tree : Tree} {entry : Entry} (member : entry ∈ tree.entries)
    {parent directory : Path} (found : entry.path.parent? = some parent)
    (same : parent.same directory = true)
    (isOpen : tree.node? directory = some .directory ∨
      directory.isRoot = true ∧ tree.isFile directory = false) :
    entry.status ∈ tree.listing directory := by
  have child := Path.is_child_of_parent found
  rw [Path.is_child_congr same] at child
  rw [listing_of_ok (list_of_open isOpen)]
  exact List.mem_map_of_mem (List.mem_filter.mpr ⟨member, child⟩)

/-- In a tree every entry is found by listing from the roots. -/
theorem found_of_rooted {tree : Tree} (rooted : tree.Rooted)
    (open_roots : ∀ root : Path, root.isRoot = true → tree.isFile root = false) {entry : Entry}
    (member : entry ∈ tree.entries) : tree.Found entry.path := by
  -- the induction is on the depth, since the entry above is written as it was made
  induction depth : entry.path.parts.length generalizing entry with
  | zero =>
      apply Found.root
      rw [Path.is_root_iff]
      exact Or.inl (List.eq_nil_of_length_eq_zero depth)
  | succ count induction =>
      by_cases isRoot : entry.path.isRoot = true
      · exact .root _ isRoot
      · obtain ⟨parent, found⟩ := Path.exists_parent (by simpa using isRoot)
        rw [← path_status entry]
        rcases rooted entry member parent found with root | directory
        · exact .listed parent entry.status (.root parent root)
            (status_listed member found (Path.same_refl _) (.inr ⟨root, open_roots parent root⟩))
        · have above := directory
          rw [node?, Option.map_eq_some_iff] at above
          obtain ⟨other, isOther, _⟩ := above
          obtain ⟨otherMember, same⟩ := found_same isOther
          have otherDepth : other.path.parts.length = count := by
            rw [(Path.same_iff_parts _ _).mp same]
            have longer := Path.length_parent found
            omega
          rw [Path.same_comm] at same
          rw [node_congr tree same] at directory
          exact .listed other.path entry.status (induction otherMember otherDepth)
            (status_listed member found same (.inl directory))

/-- In a tree no file lies above anything. -/
theorem file_not_above {tree : Tree} (rooted : tree.Rooted) {file other : Path}
    (notRoot : file.isRoot = false) (isFile : tree.isFile file = true)
    (present : (tree.node? other).isSome) (below : other.startsWith file = true) :
    other.same file = true := by
  by_contra apart
  have above : leadsAbove file other = true := by
    rw [leadsAbove, leadsTo, below, notRoot, Path.same_comm file other]
    simpa using apart
  rw [Tree.isFile, contents?, directory_above rooted present above] at isFile
  exact absurd isFile (by simp [Node.contents?])

end Tree

/-! Runs of calls -/

/-- Whether an operation is a call of the file system's own, or of a writer, that makes no root a
file. -/
def Operation.isCall : Operation → Bool
  | .create path => !path.isRoot
  | .createDirectories _ | .delete _ | .write _ _ | .flush _ | .close _ => true
  | .addFile _ _ | .addDirectory _ | .failReads _ => false

namespace Past

theorem create_of_opened {past : List Operation} {path : Path} (member : path ∈ opened past) :
    .create path ∈ past := by
  induction past with
  | nil => exact absurd member List.not_mem_nil
  | cons operation earlier induction =>
      cases operation with
      | create other =>
          rcases List.mem_append.mp member with before | here
          · exact List.mem_cons_of_mem _ (induction before)
          · rw [List.mem_singleton.mp here]
            exact List.mem_cons_self
      | _ => exact List.mem_cons_of_mem _ (induction member)

variable {past : List Operation} (calls : ∀ operation ∈ past, operation.isCall = true)

include calls

theorem opened_not_root {number : Nat} {path : Path}
    (isOpened : (opened past)[number]? = some path) : path.isRoot = false := by
  have created := calls _ (create_of_opened (List.mem_of_getElem? isOpened))
  simpa [Operation.isCall] using created

theorem contents_at_root {root : Path} (isRoot : root.isRoot = true) :
    contentsAt past root = none := by
  induction past with
  | nil => rfl
  | cons operation earlier induction =>
      have earlierCalls : ∀ operation ∈ earlier, operation.isCall = true :=
        fun other member => calls other (List.mem_cons_of_mem _ member)
      have rest := induction earlierCalls
      have apart {path : Path} (notRoot : path.isRoot = false) : ¬root.same path = true := by
        intro same
        rw [Path.is_root_congr same, notRoot] at isRoot
        exact absurd isRoot (by simp)
      have published (number : Nat) (operation : Operation)
          (event : event? earlier operation = (opened earlier)[number]?.map fun path =>
            .published path (written number earlier)) :
          contentsAt (operation :: earlier) root = none := by
        cases isOpened : (opened earlier)[number]? with
        | none => rw [contents_at_quiet (by rw [event, isOpened]; rfl), rest]
        | some path =>
            rw [contents_at_published (by rw [event, isOpened]; rfl),
              if_neg (apart (opened_not_root earlierCalls isOpened)), rest]
      have isCall := calls operation List.mem_cons_self
      cases operation with
      | addFile path contents => exact absurd isCall (by simp [Operation.isCall])
      | create path =>
          rw [contents_at_published rfl, if_neg (apart (by simpa [Operation.isCall] using isCall)),
            rest]
      | delete path =>
          rw [contents_at_deleted rfl, rest]
          split <;> rfl
      | flush number => exact published number _ rfl
      | close number => exact published number _ rfl
      | _ => rw [contents_at_quiet rfl, rest]

end Past

namespace Running

open Past Memory.Tree

theorem past_subset (operations : List Operation) : (after operations).past ⊆ operations := by
  induction operations using List.reverseRecOn with
  | nil => exact List.nil_subset _
  | append_singleton operations operation induction =>
      rw [after_concat]
      have effect := step_effect (after operations) operation
      generalize (after operations).step operation = next at effect
      have grown := List.subset_append_of_subset_left [operation] induction
      have done : operation :: (after operations).past ⊆ operations ++ [operation] :=
        List.cons_subset.mpr ⟨by simp, grown⟩
      cases effect with
      | refused => exact grown
      | _ => exact done

theorem writer_of_publishing {running : Running} {operation : Operation} {writer : Writer}
    (published : running.publishing? operation = some writer) :
    ∃ number, running.writer? number = some writer := by
  cases operation with
  | flush number => exact ⟨number, published⟩
  | close number => exact ⟨number, published⟩
  | _ => exact absurd published (by simp [publishing?])

/-- Of all calls only a publication can keep a tree from staying one, and it does so exactly where
the place of its writer cannot take a file. -/
theorem rooted_step_iff {running : Running} (rooted : running.tree.Rooted)
    (notRoot : ∀ number writer, running.writer? number = some writer →
      writer.path.isRoot = false) {operation : Operation} (isCall : operation.isCall = true) :
    (running.step operation).tree.Rooted ↔
      ∀ writer, running.publishing? operation = some writer → running.tree.Admits writer.path := by
  have effect := step_effect running operation
  generalize running.step operation = next at effect
  have kept {tree : Tree} (still : tree.Rooted) (silent : running.publishing? operation = none) :
      tree.Rooted ↔ ∀ writer, running.publishing? operation = some writer →
        running.tree.Admits writer.path :=
    iff_of_true still fun writer published => absurd (silent.symm.trans published) (by simp)
  have published (number : Nat) (writer : Writer) (isOpen : running.writer? number = some writer)
      (same : running.publishing? operation = running.writer? number) :
      (running.tree.publish writer).Rooted ↔ ∀ other, running.publishing? operation = some other →
        running.tree.Admits other.path := by
    rw [Tree.publish, rooted_put_iff rooted (notRoot number writer isOpen), same, isOpen]
    simp
  cases effect with
  | addFile => exact absurd isCall (by simp [Operation.isCall])
  | addDirectory => exact absurd isCall (by simp [Operation.isCall])
  | failReads => exact absurd isCall (by simp [Operation.isCall])
  | create path tree made =>
      exact kept (rooted_create rooted (by simpa [Operation.isCall] using isCall) made) rfl
  | createDirectories path tree made => exact kept (rooted_create_directories rooted made) rfl
  | delete path => exact kept (rooted_delete rooted path) rfl
  | write => exact kept rooted rfl
  | flush number writer isOpen => exact published number writer isOpen rfl
  | close number writer isOpen => exact published number writer isOpen rfl
  | refused _ silent => exact kept rooted silent

section calls

variable {operations : List Operation}
  (calls : ∀ operation ∈ operations, operation.isCall = true)

include calls

theorem calls_at (moment : Nat) :
    ∀ operation ∈ operations.take moment, operation.isCall = true :=
  fun operation member => calls operation (List.mem_of_mem_take member)

theorem writer_not_root {number : Nat} {writer : Writer}
    (isOpen : (after operations).writer? number = some writer) : writer.path.isRoot = false := by
  have told := (faithful_after operations).writers.writer number writer (slot_of_writer isOpen)
  exact opened_not_root (fun operation member => calls operation (past_subset _ member)) told.1

/-- All trees of a run are trees exactly when each publication finds a place that can take a
file. -/
theorem rooted_at_iff :
    (∀ moment ≤ operations.length, (treeAt operations moment).Rooted) ↔
      ∀ moment operation writer, operations[moment]? = some operation →
        (after (operations.take moment)).publishing? operation = some writer →
          (treeAt operations moment).Admits writer.path := by
  have step {moment : Nat} {operation : Operation} (here : operations[moment]? = some operation)
      (rooted : (treeAt operations moment).Rooted) :
      (treeAt operations (moment + 1)).Rooted ↔
        ∀ writer, (after (operations.take moment)).publishing? operation = some writer →
          (treeAt operations moment).Admits writer.path := by
    rw [treeAt, after_take_succ here]
    exact rooted_step_iff rooted (fun _ _ => writer_not_root (calls_at calls moment))
      (calls operation (List.mem_of_getElem? here))
  constructor
  · intro rooted moment operation writer here published
    have bound := (List.getElem?_eq_some_iff.mp here).1
    exact (step here (rooted moment (by omega))).mp (rooted (moment + 1) bound) writer published
  · intro admitted moment bound
    induction moment with
    | zero => exact rooted_empty
    | succ moment induction =>
        have here := List.getElem?_eq_getElem bound
        exact (step here (induction (Nat.le_of_lt bound))).mpr
          fun writer published => admitted moment _ writer here published

theorem roots_open (root : Path) (isRoot : root.isRoot = true) :
    (after operations).tree.isFile root = false := by
  have none := contents_at_root
    (fun operation member => calls operation (past_subset operations member)) isRoot
  rw [isFile, (faithful_after operations).contents, none]
  rfl

end calls

/-! Runs that disturb no open writer -/

/-- Nothing is deleted at the path of an open writer or above it. -/
def Undisturbed (operations : List Operation) : Prop :=
  ∀ (moment : Nat) (path : Path), operations[moment]? = some (.delete path) →
    ∀ number writer, (after (operations.take moment)).writer? number = some writer →
      writer.path.startsWith path = false

def Held (running : Running) : Prop :=
  ∀ number writer, running.writer? number = some writer → running.tree.isFile writer.path = true

theorem writer_of_set {writers : List (Option Writer)} {changed number : Nat}
    {other : Option Writer} {writer : Writer}
    (isOpen : (writers.set changed other)[number]?.join = some writer) :
    other = some writer ∨ writers[number]?.join = some writer := by
  rw [Option.join_eq_some_iff, List.getElem?_set] at isOpen
  split at isOpen
  · split at isOpen
    · exact Or.inl (Option.some.inj isOpen)
    · exact absurd isOpen (by simp)
  · exact Or.inr (Option.join_eq_some_iff.mpr isOpen)

theorem writer_of_append {writers : List (Option Writer)} {number : Nat} {opened writer : Writer}
    (isOpen : (writers ++ [some opened])[number]?.join = some writer) :
    opened = writer ∨ writers[number]?.join = some writer := by
  rw [Option.join_eq_some_iff, List.getElem?_append] at isOpen
  split at isOpen
  · exact Or.inr (Option.join_eq_some_iff.mpr isOpen)
  · obtain ⟨_, same⟩ := List.getElem?_eq_some_iff.mp isOpen
    rw [List.getElem_singleton] at same
    exact Or.inl (Option.some.inj same)

theorem is_file_put {tree : Tree} {file : Path} (isFile : tree.isFile file = true) (path : Path)
    (contents : Bytes) : (tree.putFile path contents).isFile file = true := by
  rw [Tree.isFile, contents_put]
  split
  · rfl
  · exact isFile

theorem held_step {running : Running} (held : running.Held) {operation : Operation}
    (undisturbed : ∀ path, operation = .delete path → ∀ number writer,
      running.writer? number = some writer → writer.path.startsWith path = false) :
    (running.step operation).Held := by
  have effect := step_effect running operation
  generalize running.step operation = next at effect
  have ensured (path : Path) {file : Path} (isFile : running.tree.isFile file = true) :
      (running.tree.ensureDirectories path).isFile file = true := by
    rw [Tree.isFile, contents_ensure]
    exact isFile
  -- Only a deletion takes a file away, and it spares the path of every open writer.
  cases effect with
  | addFile path contents =>
      intro number writer isOpen
      rw [Tree.isFile, contents_add]
      split
      · rfl
      · exact held number writer isOpen
  | addDirectory path => exact fun number writer isOpen => ensured path (held number writer isOpen)
  | failReads path => exact held
  | create path tree made =>
      intro number writer isOpen
      rw [Tree.isFile, contents_create made]
      split
      · rfl
      · rename_i elsewhere
        rcases writer_of_append isOpen with same | before
        · rw [← same] at elsewhere
          exact absurd (Path.same_refl path) elsewhere
        · exact held number writer before
  | createDirectories path tree made =>
      rw [(create_directories_ok made).1]
      exact fun number writer isOpen => ensured path (held number writer isOpen)
  | delete path =>
      intro number writer isOpen
      have outside := undisturbed path rfl number writer isOpen
      rw [Tree.isFile, contents_delete, outside, if_neg (by simp)]
      exact held number writer isOpen
  | write number piece writer isOpen =>
      intro other found isFound
      rcases writer_of_set isFound with same | before
      · rw [← Option.some.inj same]
        exact held number writer isOpen
      · exact held other found before
  | flush number writer isOpen =>
      exact fun other found isFound => is_file_put (held other found isFound) _ _
  | close number writer isOpen =>
      intro other found isFound
      rcases writer_of_set isFound with same | before
      · exact absurd same (by simp)
      · exact is_file_put (held other found before) _ _
  | refused => exact held

theorem held_at {operations : List Operation} (undisturbed : Undisturbed operations)
    {moment : Nat} (bound : moment ≤ operations.length) :
    (after (operations.take moment)).Held := by
  induction moment with
  | zero => exact fun number writer isOpen => absurd isOpen (by simp [after, start, writer?])
  | succ moment induction =>
      have here := List.getElem?_eq_getElem bound
      rw [after_take_succ here]
      apply held_step (induction (Nat.le_of_lt bound))
      intro path isDeletion
      exact undisturbed moment path (isDeletion ▸ here)

theorem rooted_of_undisturbed {operations : List Operation}
    (calls : ∀ operation ∈ operations, operation.isCall = true)
    (undisturbed : Undisturbed operations) {moment : Nat} (bound : moment ≤ operations.length) :
    (treeAt operations moment).Rooted := by
  induction moment with
  | zero => exact rooted_empty
  | succ moment induction =>
      have rooted := induction (Nat.le_of_lt bound)
      have here := List.getElem?_eq_getElem bound
      have notRoot (number : Nat) (writer : Writer)
          (isOpen : (after (operations.take moment)).writer? number = some writer) :
          writer.path.isRoot = false := writer_not_root (calls_at calls moment) isOpen
      rw [treeAt, after_take_succ here, rooted_step_iff rooted notRoot
        (calls _ (List.mem_of_getElem? here))]
      intro writer published
      obtain ⟨number, isOpen⟩ := writer_of_publishing published
      exact admits_file rooted (notRoot number writer isOpen)
        (held_at undisturbed (Nat.le_of_lt bound) number writer isOpen)

/-- The files in memory are a tree after every operation of a run exactly when each publication
finds a place that can take a file; it always does when nothing is deleted at the path of an open
writer or above it. In a tree every entry is found by listing from the roots, and no file lies
above anything. -/
theorem stays_tree_iff (operations : List Operation)
    (calls : ∀ operation ∈ operations, operation.isCall = true) :
    ((∀ moment ≤ operations.length, (treeAt operations moment).Rooted) ↔
      ∀ moment operation writer, operations[moment]? = some operation →
        (after (operations.take moment)).publishing? operation = some writer →
          (treeAt operations moment).Admits writer.path) ∧
    (Undisturbed operations → ∀ moment ≤ operations.length, (treeAt operations moment).Rooted) ∧
    ((after operations).tree.Rooted →
      (∀ entry ∈ (after operations).tree.entries, (after operations).tree.Found entry.path) ∧
      ∀ file other : Path, (after operations).tree.isFile file = true →
        ((after operations).tree.node? other).isSome → other.startsWith file = true →
          other.same file = true) := by
  refine ⟨rooted_at_iff calls, fun undisturbed _ => rooted_of_undisturbed calls undisturbed, ?_⟩
  intro rooted
  constructor
  · intro entry member
    exact found_of_rooted rooted (roots_open calls) member
  · intro file other isFile present below
    have notRoot : file.isRoot = false := by
      rw [Bool.eq_false_iff]
      intro isRoot
      rw [roots_open calls file isRoot] at isFile
      exact absurd isFile (by simp)
    exact file_not_above rooted notRoot isFile present below

/-- A file that is made, lost with its directory, and published again. -/
def orphaning : List Operation :=
  [.create (.ofText "/a/f"), .write 0 [1], .delete (.ofText "/a"), .close 0]

/-- The file is there again and its directory is not. -/
theorem orphan_left :
    (∀ operation ∈ orphaning, operation.isCall = true) ∧
      (after orphaning).tree.contents? (.ofText "/a/f") = some [1] ∧
      (after orphaning).tree.node? (.ofText "/a") = none ∧
      ¬(after orphaning).tree.Rooted := by
  decide +kernel

/-- A file that is published before its directory is deleted and another one made. -/
def settled : List Operation :=
  [.create (.ofText "/a/f"), .write 0 [1], .close 0, .delete (.ofText "/a"),
    .create (.ofText "/a/g"), .flush 1]

theorem settled_found :
    (∀ operation ∈ settled, operation.isCall = true) ∧ (after settled).tree.Rooted ∧
      ∀ entry ∈ (after settled).tree.entries, (after settled).tree.Found entry.path := by
  have calls : ∀ operation ∈ settled, operation.isCall = true := by decide
  have rooted : (after settled).tree.Rooted := by decide +kernel
  exact ⟨calls, rooted, ((stays_tree_iff settled calls).2.2 rooted).1⟩

end Running

end ChunkStore.Memory
