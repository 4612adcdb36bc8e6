import ChunkStore.Proofs.Aggregation
import ChunkStore.Proofs.ListingOrder
import ChunkStore.Proofs.Tampering

/-!
Aggregating a directory once and again. A failure leaves the tree as it was. A success changes what
is at the manifest and nothing else, and since the manifest is no part of the digest that it holds,
the same digest comes out when the directory is aggregated again or verified.
-/

namespace ChunkStore

set_option autoImplicit false

open Stateful Memory

namespace Memory.Tree

/-! Trees that differ at some places only -/

def isAt (spots : List Path) (path : Path) : Bool := spots.any path.same

theorem is_at_iff (spots : List Path) (path : Path) :
    isAt spots path = true ↔ ∃ spot ∈ spots, path.same spot = true := by
  simp [isAt]

theorem is_at_congr (spots : List Path) {left right : Path} (same : left.same right = true) :
    isAt spots left = isAt spots right := by
  have parts := (Path.same_iff_parts left right).mp same
  rw [Bool.eq_iff_iff, is_at_iff, is_at_iff]
  simp only [Path.same_iff_parts, parts]

/-- Elsewhere than at some spots, a tree holds the same entries in the same order as before. All
places that were there are still there in their order, and those that are new come behind. -/
structure SameBut (spots : List Path) (before after : Tree) : Prop where
  elsewhere : (after.entries.filter fun entry => !isAt spots entry.path) =
    before.entries.filter fun entry => !isAt spots entry.path
  order : before.places <+: after.places
  distinct : before.Distinct → after.Distinct
  failing : after.failing = before.failing

namespace SameBut

variable {spots others : List Path} {before middle after : Tree}

theorem refl (spots : List Path) (tree : Tree) : SameBut spots tree tree where
  elsewhere := rfl
  order := List.prefix_rfl
  distinct := id
  failing := rfl

theorem trans (first : SameBut spots before middle) (second : SameBut spots middle after) :
    SameBut spots before after where
  elsewhere := second.elsewhere.trans first.elsewhere
  order := first.order.trans second.order
  distinct := second.distinct ∘ first.distinct
  failing := second.failing.trans first.failing

theorem mono (same : SameBut spots before after)
    (wider : ∀ path, isAt spots path = true → isAt others path = true) :
    SameBut others before after where
  elsewhere := by
    have narrowed (tree : Tree) : (tree.entries.filter fun entry => !isAt others entry.path) =
        (tree.entries.filter fun entry => !isAt spots entry.path).filter
          fun entry => !isAt others entry.path := by
      rw [List.filter_filter]
      apply List.filter_congr
      intro entry _
      by_cases here : isAt spots entry.path = true
      · rw [wider entry.path here]
        rfl
      · rw [Bool.eq_false_iff.mpr here]
        simp
    rw [narrowed after, same.elsewhere, ← narrowed before]
  order := same.order
  distinct := same.distinct
  failing := same.failing

theorem put (tree : Tree) {path : Path} (isSpot : isAt spots path = true) (contents : Bytes) :
    SameBut spots tree (tree.putFile path contents) where
  elsewhere := by
    apply filter_put tree path contents fun other => !isAt spots other
    intro other same
    rw [is_at_congr spots same, isSpot]
    rfl
  order := by
    rw [places_put]
    exact List.prefix_append _ _
  distinct distinct := distinct_put distinct path contents
  failing := failing_put tree path contents

theorem node (same : SameBut spots before after) {path : Path} (off : isAt spots path = false) :
    after.node? path = before.node? path := by
  have narrowed (tree : Tree) : tree.find? path =
      (tree.entries.filter fun entry => !isAt spots entry.path).find?
        fun entry => entry.path.same path := by
    rw [List.find?_filter, find?]
    congr 1
    funext entry
    by_cases here : entry.path.same path = true
    · rw [is_at_congr spots here, off, here]
      rfl
    · simp [here]
  rw [node?, node?, narrowed after, same.elsewhere, ← narrowed before]

end SameBut

/-! Storing in a directory that is there -/

theorem ensure_of_none_missing {tree : Tree} {path : Path} (none : tree.missing path = []) :
    tree.ensureDirectories path = tree := by
  rw [ensure_eq, none, List.map_nil, List.append_nil]

/-- A file that is stored where no directory is missing above it is put there. -/
theorem store_in_place {tree after : Tree} {path : Path} {contents : Bytes}
    (none : tree.missingAbove path = []) (stored : tree.store path contents = .ok after) :
    after = tree.putFile path contents := by
  have still : tree.withParents path = tree := by
    rw [missingAbove] at none
    rw [withParents]
    cases found : path.parent? with
    | none => rfl
    | some parent =>
        rw [found] at none
        exact ensure_of_none_missing none
  obtain ⟨made, created, rfl⟩ := store_ok stored
  rw [(create_ok created).1, still, put_put]

/-- A file that was stored can be stored again, and only what it holds is changed. -/
theorem store_again {tree after : Tree} {path : Path} {first : Bytes}
    (stored : tree.store path first = .ok after) (second : Bytes) :
    after.store path second = .ok (after.putFile path second) := by
  have here : after.node? path = some (.file first) := by
    rw [node_store stored, if_pos (Path.same_refl path)]
  rw [store, create, if_neg (by simp [here])]
  cases found : path.parent? with
  | none =>
      simp only [Except.map]
      rw [put_put]
  | some parent =>
      obtain ⟨made, created, _⟩ := store_ok stored
      have unblocked := create_unblocked created found
      have above (place : Path) (member : place ∈ parent.ancestors) :
          after.node? place = (tree.node? place).or
            (if leadsAbove place path then some .directory else none) := by
        rw [node_store stored, if_neg]
        rw [Bool.not_eq_true]
        apply Path.not_same_of_length
        have shorter := (Path.ancestor_is_beginning parent place member).length_le
        have longer := Path.length_parent found
        omega
      have free : after.blockingFile? parent = none := by
        rw [blockingFile?, List.find?_eq_none]
        intro place member
        have noFile := unblocked place member
        rw [isFile, contents?] at noFile ⊢
        rw [above place member]
        cases node : tree.node? place with
        | none => split <;> simp [Node.contents?]
        | some node' =>
            rw [node] at noFile
            simpa using noFile
      have none : after.missing parent = [] := by
        rw [List.eq_nil_iff_forall_not_mem]
        intro place member
        obtain ⟨ancestor, notRoot, absent⟩ := mem_missing.mp member
        have leads : leadsAbove place path = true := by
          rw [← leads_above_parent path parent place found]
          exact leads_of_missing member (Path.same_refl place)
        rw [above place ancestor, leads, if_pos rfl] at absent
        cases node : tree.node? place <;> simp [node] at absent
      simp only [createDirectories, free, ensure_of_none_missing none, Except.map]
      rw [put_put]

end Memory.Tree

namespace Checksum

/-! Putting a manifest -/

/-- Putting the manifest of one directory changes the digest of none, its own included. -/
theorem node_digest_put_manifest (order : ChecksumOrder) (tree : Tree) {owner directory : Path}
    (notManifest : directory.same (manifestPath owner) = false) (contents : Bytes) :
    nodeDigest order (tree.putFile (manifestPath owner) contents) directory =
      nodeDigest order tree directory := by
  have node (path : Path) (apart : path.same (manifestPath owner) = false) :
      (tree.putFile (manifestPath owner) contents).node? path = tree.node? path := by
    rw [Tree.node_put, apart]
    rfl
  apply node_digest_congr order
  · exact node directory notManifest
  · apply Tree.children_put_filter
    intro status same _
    rw [Status.name, Path.name_congr same, name_manifest_path]
    simp
  · intro path _ named
    rw [wholeFile, wholeFile, Tree.openReader, Tree.openReader, Tree.isFailing, Tree.isFailing,
      Tree.failing_put, node path]
    apply Path.not_same_of_name
    rw [name_manifest_path]
    exact named

theorem manifest_not_same (directory : Path) : directory.same (manifestPath directory) = false := by
  apply Path.not_same_of_length
  rw [length_manifest]
  omega

theorem open_of_stored {tree after : Tree} {directory : Path} {entries : List Status}
    {contents : Bytes} (listed : tree.list directory = .ok entries)
    (stored : tree.store (manifestPath directory) contents = .ok after) :
    tree.node? directory = some .directory ∨
      directory.isRoot = true ∧ tree.node? directory = none := by
  rcases Tree.list_cases listed with ⟨_, isOpen⟩ | ⟨bytes, found, _⟩
  · exact isOpen
  · -- no directory can be made of a file, so it takes no manifest
    have child : (manifestPath directory).isChildOf directory = true :=
      (Path.join_is_child_iff directory directory manifestName plain_manifest).mpr rfl
    obtain ⟨parent, isParent, same⟩ := Path.parent_of_child child
    obtain ⟨made, created, _⟩ := Tree.store_ok stored
    obtain ⟨higher, ancestors, _⟩ := Path.ancestors_cons parent
    have noFile := Tree.create_unblocked created isParent parent (by simp [ancestors])
    rw [Tree.isFile, Tree.contents?, Tree.node_congr tree same, found] at noFile
    exact absurd noFile (by simp [Node.contents?])

theorem store_manifest {tree after : Tree} (anchored : tree.Anchored) {directory : Path}
    {entries : List Status} {contents : Bytes} (listed : tree.list directory = .ok entries)
    (stored : tree.store (manifestPath directory) contents = .ok after) :
    after = tree.putFile (manifestPath directory) contents := by
  apply Tree.store_in_place _ stored
  rw [List.eq_nil_iff_forall_not_mem]
  intro above member
  obtain ⟨leads, absent⟩ := Tree.mem_missing_above member
  have notRoot := ((Tree.leads_above_iff _ _).mp leads).2.1
  have inner := leads_above_manifest leads
  rcases open_of_stored listed stored with isDirectory | ⟨root, _⟩
  · have present : (tree.node? above).isSome := by
      apply anchored directory above isDirectory
      rw [Tree.leadsTo, Bool.and_eq_true, Path.starts_with_iff_parts, notRoot]
      exact ⟨inner, rfl⟩
    rw [absent] at present
    exact absurd present (by simp)
  · rw [Path.is_root_of_beginning inner root] at notRoot
    exact absurd notRoot (by simp)

/-! Aggregating -/

/-- A directory that was aggregated had its digest before, and to store that was to put it in the
manifest. -/
theorem aggregate_puts {tree after : Tree} (anchored : tree.Anchored) {options : ChecksumOptions}
    {directory : Path} {node : NodeDigest}
    (done : perform (aggregate files options directory) tree = (.ok node, after)) :
    nodeDigest options.order tree directory = .ok node ∧
      tree.store (manifestPath directory) node.digest = .ok after ∧
      after = tree.putFile (manifestPath directory) node.digest := by
  rcases aggregate_cases options directory tree with
    ⟨error, failed⟩ | ⟨found, final, digested, stored, gave⟩
  · rw [failed] at done
    exact absurd (congrArg Prod.fst done) (by simp)
  · rw [gave, Prod.mk.injEq, Except.ok.injEq] at done
    obtain ⟨rfl, rfl⟩ := done
    obtain ⟨_, entries, listed, _⟩ := fields_of_digest digested
    exact ⟨digested, stored, store_manifest anchored listed stored⟩

/-- Aggregating a directory fails without a trace, or it changes the manifest alone, which then
holds the digest. In that case aggregating it again in the same order gives the same and changes
nothing, and verifying it finds it right if the manifest can be read. -/
theorem aggregate_is_atomic_and_idempotent {tree : Tree} (reachable : tree.Reachable)
    (options : ChecksumOptions) (directory : Path) :
    (∀ error after, perform (aggregate files options directory) tree = (.error error, after) →
      after = tree) ∧
    ∀ node after, perform (aggregate files options directory) tree = (.ok node, after) →
      tree.SameBut [manifestPath directory] after ∧
      after.contents? (manifestPath directory) = some node.digest ∧
      ∀ bufferSize,
        perform (aggregate files { options with bufferSize } directory) after =
          (.ok node, after) ∧
        (tree.isFailing (manifestPath directory) = false →
          perform (verify files { options with bufferSize } directory) after =
            (.ok (.matching node.digest), after)) := by
  constructor
  · intro error after failed
    rcases aggregate_cases options directory tree with
      ⟨found, unchanged⟩ | ⟨node, final, _, _, gave⟩
    · rw [unchanged] at failed
      exact (congrArg Prod.snd failed).symm
    · rw [gave] at failed
      exact absurd (congrArg Prod.fst failed) (by simp)
  · intro node after done
    obtain ⟨digested, stored, put⟩ := aggregate_puts reachable.anchored done
    have same : tree.SameBut [manifestPath directory] after := by
      rw [put]
      apply Tree.SameBut.put
      simp [Tree.isAt, Path.same_refl]
    have signed : after.contents? (manifestPath directory) = some node.digest := by
      rw [Tree.contents_store stored, if_pos (Path.same_refl _)]
    have again : nodeDigest options.order after directory = .ok node := by
      rw [put, node_digest_put_manifest options.order tree (manifest_not_same directory), digested]
    have still : after.putFile (manifestPath directory) node.digest = after := by
      rw [put, Tree.put_put]
    refine ⟨same, signed, ?_⟩
    intro bufferSize
    constructor
    · rw [perform_aggregate, again]
      simp only [Tree.store_again stored node.digest, still]
    · intro healthy
      have owner := (fields_of_digest digested).1
      rw [perform_verify, ← owner, verification_matches]
      · rw [owner, Tree.isFailing, same.failing]
        exact healthy
      · rw [owner]
        exact again
      · rw [owner]
        exact signed

/-- A directory of one chunk can be aggregated twice, a file cannot be aggregated. -/
theorem chunk_node_aggregated_again :
    (∃ after, perform (aggregate files {} (.ofText "/node")) chunkTree = (.ok chunkNode, after) ∧
      chunkTree.SameBut [manifestPath (.ofText "/node")] after ∧
      perform (aggregate files { bufferSize := 1 } (.ofText "/node")) after =
        (.ok chunkNode, after) ∧
      perform (verify files { bufferSize := 1 } (.ofText "/node")) after =
        (.ok (.matching chunkNode.digest), after)) ∧
    ∃ error after, perform (aggregate files {} (.ofText "/node/0.data")) chunkTree =
      (.error error, after) ∧ after = chunkTree := by
  have reachable : chunkTree.Reachable :=
    ⟨[], .next (.next .start (.addFile _ _ _)) (.addFile _ _ _)⟩
  constructor
  · have created : (chunkTree.create (manifestPath (.ofText "/node"))).isOk = true := by
      decide +kernel
    obtain ⟨made, isMade⟩ := exists_ok created
    have done := @aggregate_succeeds {} _ _ _ _ chunk_tree_digest isMade
    obtain ⟨same, _, again⟩ :=
      (aggregate_is_atomic_and_idempotent reachable {} (.ofText "/node")).2 _ _ done
    exact ⟨_, done, same, (again 1).1, (again 1).2 rfl⟩
  · have refused : (chunkTree.create (manifestPath (.ofText "/node/0.data"))).isOk = false := by
      decide +kernel
    rcases aggregate_cases {} (.ofText "/node/0.data") chunkTree with
      ⟨error, failed⟩ | ⟨node, after, _, stored, _⟩
    · exact ⟨error, _, failed,
        (aggregate_is_atomic_and_idempotent reachable {} (.ofText "/node/0.data")).1 _ _ failed⟩
    · obtain ⟨made, created, _⟩ := Tree.store_ok stored
      rw [created] at refused
      exact absurd refused (by simp [Except.isOk, Except.toBool])

end Checksum

end ChunkStore
