import ChunkStore.Proofs.ChunkNames
import ChunkStore.Proofs.Digests
import ChunkStore.Proofs.Listings
import ChunkStore.Proofs.Sorting

/-!
Manifests are left out of the digests they hold. Storing the manifest of one directory changes no
digest of a directory beside it, its own included, so a manifest that was right stays right while
other directories are aggregated.
-/

namespace ChunkStore

set_option autoImplicit false

open Stateful Memory

theorem ChecksumOrder.inputs_congr (order : ChecksumOrder) (manifest : String)
    {left right : List Status}
    (same : (left.filter fun status => status.name != manifest) =
      right.filter fun status => status.name != manifest) :
    order.inputs manifest left = order.inputs manifest right := by
  have split (entries : List Status) : order.inputs manifest entries =
      ((entries.filter fun status => status.name != manifest).mergeSort order.le).filter
        fun status => !status.isDirectory && !status.isHidden := by
    rw [← filter_merge_sort order.ordering, List.filter_filter]
    rfl
  rw [split, split, same]

theorem ChecksumOrder.mem_inputs {order : ChecksumOrder} {manifest : String}
    {entries : List Status} {status : Status} (member : status ∈ order.inputs manifest entries) :
    status ∈ entries ∧ status.name ≠ manifest := by
  obtain ⟨arranged, kept⟩ := List.mem_filter.mp member
  refine ⟨List.mem_mergeSort.mp arranged, ?_⟩
  intro same
  simp [same] at kept

namespace Checksum

/-! What a digest depends on -/

/-- In listing order the files are digested kind by kind. Evaluation gets through this form, and
through the sort that it stands for it does not. -/
theorem node_digest_listing (tree : Tree) (directory : Path) :
    nodeDigest .listing tree directory =
      match tree.list directory with
      | .error error => .error (.list directory error)
      | .ok entries =>
          let arranged := ChecksumOrder.ofKind .directory entries ++
            ChecksumOrder.ofKind .data entries ++ ChecksumOrder.ofKind .index entries
          let inputs := (arranged.filter fun status =>
            !status.isDirectory && !status.isHidden && status.name != manifestName).map (·.path)
          (hashedFiles tree inputs (.initial, 0)).map fun (hasher, bytes) =>
            { directory, digest := hasher.finish, files := inputs, bytes } := by
  rw [nodeDigest]
  cases tree.list directory with
  | error error => rfl
  | ok entries => simp only [ChecksumOrder.inputs, ChecksumOrder.arrange_listing]

theorem hashed_files_congr {tree after : Tree} {paths : List Path}
    (same : ∀ path ∈ paths, wholeFile after path = wholeFile tree path)
    (state : Md5.Hasher × Nat) : hashedFiles after paths state = hashedFiles tree paths state := by
  induction paths generalizing state with
  | nil => rfl
  | cons path rest induction =>
      obtain ⟨hasher, bytes⟩ := state
      rw [List.forall_mem_cons] at same
      rw [hashedFiles, hashedFiles, fileDigest, fileDigest, same.1]
      cases wholeFile tree path with
      | error error => rfl
      | ok contents => exact induction same.2 _

/-- A digest depends on what is at its directory, on what that lists but for the manifest, and on
the files that it lists. -/
theorem node_digest_congr (order : ChecksumOrder) {tree after : Tree} {directory : Path}
    (node : after.node? directory = tree.node? directory)
    (children : ((after.children directory).filter fun status => status.name != manifestName) =
      (tree.children directory).filter fun status => status.name != manifestName)
    (contents : ∀ path, (tree.node? path).isSome → path.name ≠ manifestName →
      wholeFile after path = wholeFile tree path) :
    nodeDigest order after directory = nodeDigest order tree directory := by
  have inputs : order.inputs manifestName (after.children directory) =
      order.inputs manifestName (tree.children directory) :=
    order.inputs_congr manifestName children
  have hashes {statuses : List Status}
      (found : ∀ status ∈ statuses, (tree.node? status.path).isSome) :
      hashedFiles after ((order.inputs manifestName statuses).map (·.path)) (.initial, 0) =
        hashedFiles tree ((order.inputs manifestName statuses).map (·.path)) (.initial, 0) := by
    apply hashed_files_congr
    intro path member
    obtain ⟨status, isInput, rfl⟩ := List.mem_map.mp member
    obtain ⟨inside, named⟩ := ChecksumOrder.mem_inputs isInput
    exact contents status.path (found status inside) named
  have hashedChildren := hashes
    fun status (member : status ∈ tree.children directory) => (Tree.present_of_child member).1
  rw [nodeDigest, nodeDigest, Tree.list, Tree.list, node]
  cases found : tree.node? directory with
  | none =>
      by_cases root : directory.isRoot = true
      · simp only [root, if_true]
        rw [inputs, hashedChildren]
      · simp only [root]
        rfl
  | some here =>
      cases here with
      | directory =>
          simp only
          rw [inputs, hashedChildren]
      | file bytes =>
          simp only
          rw [hashes]
          intro status member
          rw [List.mem_singleton.mp member, Status.file, found]
          rfl

/-! Storing a manifest -/

section stored

variable {tree after : Tree} {owner : Path} {contents : Bytes}
  (stored : tree.store (manifestPath owner) contents = .ok after)
  (present : (tree.node? owner).isSome)

theorem length_manifest (owner : Path) :
    (manifestPath owner).parts.length = owner.parts.length + 1 := by
  rw [manifestPath, Path.parts_join owner _ plain_manifest, List.length_append]
  rfl

theorem manifest_same_iff (left right : Path) :
    (manifestPath left).same (manifestPath right) = true ↔ left.same right = true := by
  rw [Path.same_iff_parts, Path.same_iff_parts, manifestPath, manifestPath,
    Path.parts_join left _ plain_manifest, Path.parts_join right _ plain_manifest,
    List.append_left_inj]

theorem leads_above_manifest {above owner : Path}
    (leads : Tree.leadsAbove above (manifestPath owner) = true) : above.parts <+: owner.parts := by
  obtain ⟨beginning, _, different⟩ := (Tree.leads_above_iff _ _).mp leads
  rw [manifestPath, Path.parts_join owner _ plain_manifest] at beginning different
  have inner := Path.prefix_dropLast_of_ne beginning different
  rwa [List.dropLast_concat] at inner

include stored present

theorem node_store_manifest {place : Path} (notManifest : place.same (manifestPath owner) = false)
    (there : (tree.node? place).isSome ∨ owner.parts.length ≤ place.parts.length) :
    after.node? place = tree.node? place := by
  rw [Tree.node_store stored, if_neg (by simp [notManifest])]
  by_cases leads : Tree.leadsAbove place (manifestPath owner) = true
  · have isThere : (tree.node? place).isSome := by
      rcases there with found | long
      · exact found
      · have inner := leads_above_manifest leads
        have same : place.same owner = true :=
          (Path.same_iff_parts _ _).mpr (inner.eq_of_length_le long)
        rw [Tree.node_congr tree same]
        exact present
    obtain ⟨node, found⟩ := Option.isSome_iff_exists.mp isThere
    rw [found, Option.some_or]
  · rw [if_neg leads, Option.or_none]

theorem whole_file_store_manifest {place : Path}
    (notManifest : place.same (manifestPath owner) = false)
    (there : (tree.node? place).isSome ∨ owner.parts.length ≤ place.parts.length) :
    wholeFile after place = wholeFile tree place := by
  rw [wholeFile, wholeFile, Tree.openReader, Tree.openReader,
    node_store_manifest stored present notManifest there, Tree.isFailing, Tree.isFailing,
    Tree.failing_store stored]

omit present in
theorem children_store_manifest {directory : Path}
    (beside : directory.parts.length = owner.parts.length) :
    ((after.children directory).filter fun status => status.name != manifestName) =
      (tree.children directory).filter fun status => status.name != manifestName := by
  refine Tree.children_store_filter stored directory _ ?_ ?_
  · intro status same _
    rw [Status.name, Path.name_congr same, name_manifest_path]
    simp
  · intro above member
    have inner := (leads_above_manifest (Tree.mem_missing_above member).1).length_le
    rw [Bool.eq_false_iff]
    intro child
    rw [Path.length_child child] at inner
    omega

/-- The digest of a directory as deep as the owner of a manifest is what it was. -/
theorem node_digest_store_manifest (order : ChecksumOrder) {directory : Path}
    (beside : directory.parts.length = owner.parts.length) :
    nodeDigest order after directory = nodeDigest order tree directory := by
  apply node_digest_congr order
  · apply node_store_manifest stored present
    · apply Path.not_same_of_length
      rw [length_manifest]
      omega
    · exact Or.inr (by omega)
  · exact children_store_manifest stored beside
  · intro path isThere named
    apply whole_file_store_manifest stored present _ (Or.inl isThere)
    apply Path.not_same_of_name
    rw [name_manifest_path]
    exact named

end stored

/-! Aggregating -/

theorem digest_of_same {order : ChecksumOrder} {tree : Tree} {directory other : Path}
    {node : NodeDigest} (isDirectory : tree.node? directory = some .directory)
    (same : other.same directory = true)
    (digested : nodeDigest order tree directory = .ok node) :
    ∃ found, nodeDigest order tree other = .ok found ∧ found.digest = node.digest := by
  have otherDirectory : tree.node? other = some .directory := by
    rw [Tree.node_congr tree same, isDirectory]
  have children : tree.children other = tree.children directory := by
    rw [Tree.children, Tree.children]
    congr 2
    funext entry
    exact Path.is_child_congr same entry.path
  rw [nodeDigest, Tree.list_directory isDirectory] at digested
  rw [nodeDigest, Tree.list_directory otherDirectory, children]
  simp only at digested ⊢
  cases hashed : hashedFiles tree
      ((order.inputs manifestName (tree.children directory)).map (·.path)) (.initial, 0) with
  | error error =>
      rw [hashed] at digested
      exact absurd digested (by simp [Except.map])
  | ok state =>
      rw [hashed] at digested
      exact ⟨_, rfl, by rw [← Except.ok.inj digested]⟩

/-- Every manifest of a directory directly under an output holds the digest of that directory. -/
def Honest (order : ChecksumOrder) (output : Path) (tree : Tree) : Prop :=
  ∀ directory contents, directory.isChildOf output = true →
    tree.node? directory = some .directory →
      tree.contents? (manifestPath directory) = some contents →
        ∃ node, nodeDigest order tree directory = .ok node ∧ node.digest = contents

def Unsigned (output : Path) (tree : Tree) : Prop :=
  ∀ directory, directory.isChildOf output = true → tree.contents? (manifestPath directory) = none

theorem honest_of_unsigned {output : Path} {tree : Tree} (unsigned : Unsigned output tree)
    (order : ChecksumOrder) : Honest order output tree := by
  intro directory contents child _ found
  rw [unsigned directory child] at found
  exact absurd found (by simp)

/-- Storing the digest of a directory in its manifest keeps all manifests right. -/
theorem honest_store {order : ChecksumOrder} {output owner : Path} {tree after : Tree}
    {node : NodeDigest} (honest : Honest order output tree) (child : owner.isChildOf output = true)
    (present : (tree.node? owner).isSome) (digested : nodeDigest order tree owner = .ok node)
    (stored : tree.store (manifestPath owner) node.digest = .ok after) :
    Honest order output after := by
  intro directory contents directoryChild isDirectory found
  have beside : directory.parts.length = owner.parts.length := by
    rw [Path.length_child directoryChild, Path.length_child child]
  have apart : directory.same (manifestPath owner) = false := by
    apply Path.not_same_of_length
    rw [length_manifest]
    omega
  rw [node_store_manifest stored present apart (Or.inr (by omega))] at isDirectory
  rw [node_digest_store_manifest stored present order beside]
  rw [Tree.contents_store stored] at found
  by_cases own : (manifestPath directory).same (manifestPath owner) = true
  · rw [if_pos own, Option.some.injEq] at found
    have same := (manifest_same_iff directory owner).mp own
    have ownerDirectory : tree.node? owner = some .directory := by
      rw [← Tree.node_congr tree same, isDirectory]
    obtain ⟨other, otherDigested, equal⟩ := digest_of_same ownerDirectory same digested
    exact ⟨other, otherDigested, equal.trans found⟩
  · rw [if_neg own] at found
    exact honest directory contents directoryChild isDirectory found

/-- Aggregating a directory changes nothing, or it stores the directory's digest. -/
theorem aggregate_cases (options : ChecksumOptions) (directory : Path) (tree : Tree) :
    (∃ error, perform (aggregate files options directory) tree = (.error error, tree)) ∨
      ∃ node after, nodeDigest options.order tree directory = .ok node ∧
        tree.store (manifestPath directory) node.digest = .ok after ∧
        perform (aggregate files options directory) tree = (.ok node, after) := by
  rw [perform_aggregate]
  cases digested : nodeDigest options.order tree directory with
  | error error => exact Or.inl ⟨error, rfl⟩
  | ok node =>
      cases stored : tree.store (manifestPath directory) node.digest with
      | error error => exact Or.inl ⟨.write (manifestPath directory) error, by simp only [stored]⟩
      | ok after => exact Or.inr ⟨node, after, rfl, stored, by simp only [stored]⟩

/-- However aggregating some directories ends, all manifests are right if they were before. -/
theorem honest_aggregate_each {options : ChecksumOptions} {output : Path}
    (directories : List Path) {tree : Tree} (honest : Honest options.order output tree)
    (there : ∀ directory ∈ directories,
      directory.isChildOf output = true ∧ (tree.node? directory).isSome) :
    Honest options.order output
      (perform (directories.mapM (aggregate files options)) tree).2 := by
  induction directories generalizing tree with
  | nil => exact honest
  | cons directory rest induction =>
      obtain ⟨child, present⟩ := there directory List.mem_cons_self
      rw [List.mapM_cons, perform_bind]
      rcases aggregate_cases options directory tree with
        ⟨error, failed⟩ | ⟨node, after, digested, stored, done⟩
      · rw [failed]
        exact honest
      · have afterHonest := honest_store honest child present digested stored
        have stillThere : ∀ other ∈ rest,
            other.isChildOf output = true ∧ (after.node? other).isSome := by
          intro other member
          obtain ⟨otherChild, found⟩ := there other (List.mem_cons_of_mem _ member)
          obtain ⟨entry, isEntry⟩ := Option.isSome_iff_exists.mp found
          refine ⟨otherChild, ?_⟩
          rw [Tree.node_store stored, isEntry]
          split <;> rfl
        have finished := induction afterHonest stillThere
        rw [done]
        simp only
        rw [perform_bind]
        cases others : perform (rest.mapM (aggregate files options)) after with
        | mk result final =>
            rw [others] at finished
            cases result <;> exact finished

theorem honest_aggregate_all {options : ChecksumOptions} {output : Path} {tree : Tree}
    (honest : Honest options.order output tree) :
    Honest options.order output (perform (aggregateAll files options output) tree).2 := by
  rw [aggregateAll, perform_bind, perform_node_directories, nodeDirectoriesOf]
  cases listed : tree.list output with
  | error error => exact honest
  | ok statuses =>
      apply honest_aggregate_each _ honest
      exact fun directory member => Tree.directory_of_listed listed member

/-! Verifying -/

theorem manifest_of_ok {tree : Tree} {directory : Path} {expected : Option Bytes}
    (read : manifestOf tree directory = .ok expected) :
    expected = tree.contents? (manifestPath directory) := by
  unfold manifestOf at read
  by_cases present : tree.isPresent (manifestPath directory) = true
  · rw [if_pos present, wholeFile] at read
    rcases tree.open_cases (manifestPath directory) with
      ⟨error, refused⟩ | failing | ⟨contents, opened, readable⟩
    · rw [refused] at read
      cases read
    · rw [failing] at read
      cases read
    · rw [opened] at read
      rw [readable.1]
      exact (Except.ok.inj read).symm
  · rw [if_neg present, Except.ok.injEq] at read
    rw [Tree.isPresent, Bool.or_eq_true, not_or, Option.not_isSome_iff_eq_none] at present
    rw [← read, Tree.contents?, present.2]
    rfl

theorem verification_ok {order : ChecksumOrder} {directory : Path} {tree : Tree}
    {found : Verification} (verified : verification order tree directory = .ok found) :
    ∃ node, nodeDigest order tree directory = .ok node ∧
      found = .compare (tree.contents? (manifestPath directory)) node.digest := by
  unfold verification at verified
  cases read : manifestOf tree directory with
  | error error =>
      rw [read] at verified
      cases verified
  | ok expected =>
      rw [read] at verified
      cases digested : nodeDigest order tree directory with
      | error error =>
          rw [digested] at verified
          cases verified
      | ok node =>
          rw [digested] at verified
          refine ⟨node, rfl, ?_⟩
          rw [← manifest_of_ok read]
          exact (Except.ok.inj verified).symm

theorem verification_of_honest {order : ChecksumOrder} {output directory : Path} {tree : Tree}
    {found : Verification} (honest : Honest order output tree)
    (child : directory.isChildOf output = true)
    (isDirectory : tree.node? directory = some .directory)
    (verified : verification order tree directory = .ok found) :
    ∃ digest, found = .matching digest ∨ found = .missing digest := by
  obtain ⟨node, digested, compared⟩ := verification_ok verified
  cases contents : tree.contents? (manifestPath directory) with
  | none =>
      rw [contents] at compared
      exact ⟨node.digest, Or.inr compared⟩
  | some expected =>
      obtain ⟨other, otherDigested, same⟩ :=
        honest directory expected child isDirectory contents
      rw [digested, Except.ok.injEq] at otherDigested
      rw [contents, ← same, ← otherDigested, Verification.compare, if_pos rfl] at compared
      exact ⟨node.digest, Or.inl compared⟩

theorem verification_of_unsigned {order : ChecksumOrder} {output directory : Path} {tree : Tree}
    {found : Verification} (unsigned : Unsigned output tree)
    (child : directory.isChildOf output = true)
    (verified : verification order tree directory = .ok found) :
    ∃ digest, found = .missing digest := by
  obtain ⟨node, _, compared⟩ := verification_ok verified
  rw [unsigned directory child] at compared
  exact ⟨node.digest, compared⟩

end Checksum

end ChunkStore
