import ChunkStore.Proofs.Listings
import ChunkStore.Proofs.Manifests
import ChunkStore.Proofs.Writing

/-!
Aggregating several directories beside one another. If it succeeds their manifests are stored one
after the other and nothing else is, so each directory still has the digest that its manifest holds
and checking them all finds them all right.
-/

namespace ChunkStore

set_option autoImplicit false

open Stateful Memory

theorem Stateful.perform_mapM_unchanged {σ ε α β : Type} {step : α → ExceptT ε (StateM σ) β}
    {result : α → β} {elements : List α} {state : σ}
    (unchanged : ∀ element ∈ elements,
      perform (step element) state = (.ok (result element), state)) :
    perform (elements.mapM step) state = (.ok (elements.map result), state) :=
  (perform_mapM_asking unchanged).trans (Prod.ext List.mapM_pure rfl)

namespace Checksum

/-! Storing several manifests -/

def manifestFile (node : NodeDigest) : Path × Bytes := (manifestPath node.directory, node.digest)

theorem fields_of_digest {order : ChecksumOrder} {tree : Tree} {directory : Path}
    {node : NodeDigest} (digested : nodeDigest order tree directory = .ok node) :
    node.directory = directory ∧ ∃ entries, tree.list directory = .ok entries ∧
      node.files = (order.inputs manifestName entries).map (·.path) := by
  unfold nodeDigest at digested
  cases listed : tree.list directory with
  | error error =>
      rw [listed] at digested
      cases digested
  | ok entries =>
      simp only [listed] at digested
      cases hashed : hashedFiles tree ((order.inputs manifestName entries).map (·.path))
          (.initial, 0) with
      | error error =>
          rw [hashed] at digested
          cases digested
      | ok state =>
          rw [hashed] at digested
          rw [← Except.ok.inj digested]
          exact ⟨rfl, entries, rfl, rfl⟩

/-- What an output holds as far as its listing and the digests of its directories go. -/
structure SameDigests (order : ChecksumOrder) (output : Path) (before after : Tree) : Prop where
  node : after.node? output = before.node? output
  children : after.children output = before.children output
  digest : ∀ directory, directory.isChildOf output = true →
    nodeDigest order after directory = nodeDigest order before directory

theorem SameDigests.refl (order : ChecksumOrder) (output : Path) (tree : Tree) :
    SameDigests order output tree tree := ⟨rfl, rfl, fun _ _ => rfl⟩

theorem SameDigests.trans {order : ChecksumOrder} {output : Path} {first second third : Tree}
    (lower : SameDigests order output first second)
    (upper : SameDigests order output second third) : SameDigests order output first third where
  node := upper.node.trans lower.node
  children := upper.children.trans lower.children
  digest directory child := (upper.digest directory child).trans (lower.digest directory child)

/-- Storing the manifest of a directory under an output changes neither what the output lists nor
the digest of any directory under it. -/
theorem same_digests_store {order : ChecksumOrder} {output owner : Path} {contents : Bytes}
    {tree after : Tree} (stored : tree.store (manifestPath owner) contents = .ok after)
    (child : owner.isChildOf output = true) (present : (tree.node? owner).isSome)
    (isDirectory : tree.node? output = some .directory) :
    SameDigests order output tree after := by
  have deep := Path.length_child child
  have deeper := length_manifest owner
  have notManifest : output.same (manifestPath owner) = false := by
    apply Path.not_same_of_length
    omega
  have elsewhere : (manifestPath owner).isChildOf output = false := by
    rw [Bool.eq_false_iff]
    intro isChild
    have length := Path.length_child isChild
    omega
  refine ⟨?_, ?_, ?_⟩
  · exact node_store_manifest stored present notManifest (Or.inl (by rw [isDirectory]; rfl))
  · apply Tree.children_store_elsewhere stored elsewhere
    intro above member
    obtain ⟨leads, missing⟩ := Tree.mem_missing_above member
    rw [Bool.eq_false_iff]
    intro isChild
    -- Only the owner is as deep as that, and it is there.
    have inner := leads_above_manifest leads
    have same : above.same owner = true := by
      refine (Path.same_iff_parts _ _).mpr (inner.eq_of_length ?_)
      rw [Path.length_child isChild, deep]
    rw [Tree.node_congr tree same] at missing
    rw [missing] at present
    exact absurd present (by simp)
  · intro directory isChild
    exact node_digest_store_manifest stored present order (by rw [Path.length_child isChild, deep])

theorem same_digests_store_all {order : ChecksumOrder} {output : Path} {tree after : Tree}
    {nodes : List NodeDigest}
    (there : ∀ node ∈ nodes,
      node.directory.isChildOf output = true ∧ (tree.node? node.directory).isSome)
    (isDirectory : tree.node? output = some .directory)
    (done : tree.storeAll (nodes.map manifestFile) = .ok after) :
    SameDigests order output tree after := by
  refine (Tree.store_all_keeps (fun now => SameDigests order output tree now ∧
    ∀ node ∈ nodes, (now.node? node.directory).isSome) ?_
    ⟨.refl order output tree, fun node member => (there node member).2⟩ done).1
  rintro file member before next ⟨same, present⟩ stored
  obtain ⟨node, isNode, rfl⟩ := List.mem_map.mp member
  refine ⟨same.trans (same_digests_store stored (there node isNode).1 (present node isNode) ?_), ?_⟩
  · rw [same.node, isDirectory]
  · intro other isOther
    exact Tree.present_store stored (present other isOther)

/-! Aggregating -/

theorem aggregate_succeeds {options : ChecksumOptions} {directory : Path} {tree made : Tree}
    {node : NodeDigest} (digested : nodeDigest options.order tree directory = .ok node)
    (created : tree.create (manifestPath directory) = .ok made) :
    perform (aggregate files options directory) tree =
      (.ok node, made.putFile (manifestPath directory) node.digest) := by
  rw [perform_aggregate, digested]
  simp only
  rw [Tree.store, created]
  rfl

/-- Aggregating some directories with success stores a manifest for each of them, in order, with
the digest that the directory had before any of them was stored. -/
theorem aggregate_each_ok {options : ChecksumOptions} {output : Path} {directories : List Path}
    {tree after : Tree} {nodes : List NodeDigest}
    (there : ∀ directory ∈ directories,
      directory.isChildOf output = true ∧ (tree.node? directory).isSome)
    (isDirectory : tree.node? output = some .directory)
    (done : perform (directories.mapM (aggregate files options)) tree = (.ok nodes, after)) :
    nodes.map (·.directory) = directories ∧
      tree.storeAll (nodes.map manifestFile) = .ok after ∧
      ∀ node ∈ nodes, nodeDigest options.order tree node.directory = .ok node := by
  induction directories generalizing tree nodes with
  | nil =>
      rw [List.mapM_nil, perform_pure, Prod.mk.injEq, Except.ok.injEq] at done
      obtain ⟨rfl, rfl⟩ := done
      exact ⟨rfl, rfl, by simp⟩
  | cons directory rest induction =>
      rw [List.mapM_cons] at done
      obtain ⟨first, middle, aggregated, others⟩ := bind_ok done
      obtain ⟨remaining, final, restDone, finished⟩ := bind_ok others
      rw [perform_pure, Prod.mk.injEq, Except.ok.injEq] at finished
      obtain ⟨rfl, rfl⟩ := finished
      rw [List.forall_mem_cons] at there
      rcases aggregate_cases options directory tree with
        ⟨error, failed⟩ | ⟨node, between, digested, stored, gave⟩
      · rw [failed] at aggregated
        exact absurd (congrArg Prod.fst aggregated) (by simp)
      rw [gave, Prod.mk.injEq, Except.ok.injEq] at aggregated
      obtain ⟨rfl, rfl⟩ := aggregated
      have owner := (fields_of_digest digested).1
      have same : SameDigests options.order output tree between :=
        same_digests_store stored there.1.1 there.1.2 isDirectory
      have stillThere : ∀ other ∈ rest,
          other.isChildOf output = true ∧ (between.node? other).isSome := by
        intro other member
        obtain ⟨child, present⟩ := there.2 other member
        exact ⟨child, Tree.present_store stored present⟩
      obtain ⟨directories, storedRest, digests⟩ :=
        induction stillThere (by rw [same.node, isDirectory]) restDone
      refine ⟨by rw [List.map_cons, owner, directories], ?_, ?_⟩
      · rw [List.map_cons, manifestFile, owner]
        exact Tree.store_all_cons stored storedRest
      · intro other member
        rcases List.mem_cons.mp member with rfl | later
        · rw [owner, digested]
        · have isRest : other.directory ∈ rest := by
            rw [← directories]
            exact List.mem_map_of_mem later
          rw [← same.digest other.directory (there.2 other.directory isRest).1]
          exact digests other later

/-! Checking -/

theorem verification_matches {order : ChecksumOrder} {tree : Tree} {node : NodeDigest}
    (healthy : tree.isFailing (manifestPath node.directory) = false)
    (digested : nodeDigest order tree node.directory = .ok node)
    (signed : tree.contents? (manifestPath node.directory) = some node.digest) :
    verification order tree node.directory = .ok (.matching node.digest) := by
  have readable : tree.Readable (manifestPath node.directory) node.digest := ⟨signed, healthy⟩
  have present : tree.isPresent (manifestPath node.directory) = true := by
    rw [Tree.isPresent, Tree.contents_of_node.mp signed]
    simp
  have read : manifestOf tree node.directory = .ok (some node.digest) := by
    rw [manifestOf, if_pos present, wholeFile, Tree.open_readable readable]
    rfl
  rw [verification, read, digested]
  change Except.ok (Verification.compare (some node.digest) node.digest) = _
  rw [Verification.compare, if_pos rfl]

/-- After some directories are all that is aggregated, checking the output finds them all right,
with buffers of any size. -/
theorem verify_all_matches {options : ChecksumOptions} {output : Path} {tree : Tree}
    {nodes : List NodeDigest} (healthy : tree.failing = [])
    (listed : nodeDirectoriesOf tree output = .ok (nodes.map (·.directory)))
    (digested : ∀ node ∈ nodes, nodeDigest options.order tree node.directory = .ok node)
    (signed : ∀ node ∈ nodes, tree.contents? (manifestPath node.directory) = some node.digest) :
    perform (verifyAll files options output) tree =
      (.ok (nodes.map fun node => (node.directory, .matching node.digest)), tree) := by
  rw [verifyAll, perform_bind, perform_node_directories, listed]
  simp only [List.mapM_map]
  apply perform_mapM_unchanged
  intro node member
  have readable : tree.isFailing (manifestPath node.directory) = false := by
    rw [Tree.isFailing, healthy]
    rfl
  rw [Function.comp_apply, perform_bind, perform_verify,
    verification_matches readable (digested node member) (signed node member)]
  rfl

end Checksum

end ChunkStore
