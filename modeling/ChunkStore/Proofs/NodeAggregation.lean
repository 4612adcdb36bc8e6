import ChunkStore.Proofs.Reaggregation

/-!
Aggregating all directories under an output. The directories lie beside one another, so the
manifest of one is no part of the digest of another and each digest is what it was at the
beginning. The first failure ends the run: it comes from a path at or below one directory, the
manifests of those before it are written, and nothing else has changed.
-/

namespace ChunkStore

set_option autoImplicit false

open Stateful Memory

namespace Checksum

/-! Where an error comes from -/

theorem below_of_listed {tree : Tree} {directory : Path} {entries : List Status}
    (listed : tree.list directory = .ok entries) {status : Status} (member : status ∈ entries) :
    status.path.startsWith directory = true := by
  rcases Tree.list_cases listed with ⟨rfl, _⟩ | ⟨contents, _, rfl⟩
  · have child := (Tree.present_of_child member).2
    obtain ⟨part, _, parts⟩ := (Path.is_child_iff _ _).mp child
    rw [Path.starts_with_iff_parts, parts]
    exact List.prefix_append _ _
  · rw [List.mem_singleton.mp member]
    exact (Path.starts_with_iff_parts _ _).mpr List.prefix_rfl

theorem path_of_hash_error {tree : Tree} {paths : List Path} {state : Md5.Hasher × Nat}
    {error : ChecksumError} (failed : hashedFiles tree paths state = .error error) :
    error.path ∈ paths := by
  induction paths generalizing state with
  | nil => cases failed
  | cons path rest induction =>
      obtain ⟨hasher, bytes⟩ := state
      rw [hashedFiles, fileDigest] at failed
      cases whole : wholeFile tree path with
      | error cause =>
          rw [whole] at failed
          rw [← Except.error.inj failed]
          exact List.mem_cons_self
      | ok contents =>
          rw [whole] at failed
          exact List.mem_cons_of_mem _ (induction failed)

theorem path_of_digest_error {order : ChecksumOrder} {tree : Tree} {directory : Path}
    {error : ChecksumError} (failed : nodeDigest order tree directory = .error error) :
    error.path.startsWith directory = true := by
  rw [nodeDigest] at failed
  cases listed : tree.list directory with
  | error cause =>
      rw [listed] at failed
      rw [← Except.error.inj failed, ChecksumError.path]
      exact (Path.starts_with_iff_parts _ _).mpr List.prefix_rfl
  | ok entries =>
      simp only [listed] at failed
      cases hashed : hashedFiles tree ((order.inputs manifestName entries).map (·.path))
          (.initial, 0) with
      | error cause =>
          rw [hashed] at failed
          have member := path_of_hash_error hashed
          obtain ⟨status, isInput, path⟩ := List.mem_map.mp member
          rw [← Except.error.inj failed, ← path]
          exact below_of_listed listed (ChecksumOrder.mem_inputs isInput).1
      | ok state =>
          rw [hashed] at failed
          cases failed

theorem path_of_aggregate_error {options : ChecksumOptions} {directory : Path} {tree after : Tree}
    {error : ChecksumError}
    (failed : perform (aggregate files options directory) tree = (.error error, after)) :
    after = tree ∧ error.path.startsWith directory = true := by
  rw [perform_aggregate] at failed
  cases digested : nodeDigest options.order tree directory with
  | error cause =>
      rw [digested, Prod.mk.injEq, Except.error.injEq] at failed
      exact ⟨failed.2.symm, failed.1 ▸ path_of_digest_error digested⟩
  | ok node =>
      rw [digested] at failed
      cases stored : tree.store (manifestPath directory) node.digest with
      | error cause =>
          simp only [stored, Prod.mk.injEq, Except.error.injEq] at failed
          apply And.intro failed.2.symm
          rw [← failed.1, ChecksumError.path, Path.starts_with_iff_parts, manifestPath,
            Path.parts_join directory _ plain_manifest]
          exact List.prefix_append _ _
      | ok final =>
          simp only [stored] at failed
          exact absurd (congrArg Prod.fst failed) (by simp)

/-! Trees with manifests -/

def signed (tree : Tree) (nodes : List NodeDigest) : Tree :=
  nodes.foldl (fun tree node => tree.putFile (manifestPath node.directory) node.digest) tree

def DigestsOf (order : ChecksumOrder) (tree : Tree) (directories : List Path)
    (nodes : List NodeDigest) : Prop :=
  directories.map (nodeDigest order tree) = nodes.map .ok

theorem directories_of_digests {order : ChecksumOrder} {tree : Tree} {directories : List Path}
    {nodes : List NodeDigest} (digests : DigestsOf order tree directories nodes) :
    nodes.map (·.directory) = directories := by
  induction directories generalizing nodes with
  | nil => rw [List.map_eq_nil_iff.mp digests.symm, List.map_nil]
  | cons directory rest induction =>
      cases nodes with
      | nil => cases digests
      | cons node others =>
          obtain ⟨first, later⟩ := List.cons.inj digests
          rw [List.map_cons, induction later, (fields_of_digest first).1]

theorem digest_of_digests {order : ChecksumOrder} {tree : Tree} {directories : List Path}
    {nodes : List NodeDigest} (digests : DigestsOf order tree directories nodes)
    {node : NodeDigest} (member : node ∈ nodes) :
    nodeDigest order tree node.directory = .ok node := by
  have isResult : Except.ok node ∈ directories.map (nodeDigest order tree) := by
    rw [digests]
    exact List.mem_map_of_mem member
  obtain ⟨directory, _, digested⟩ := List.mem_map.mp isResult
  rw [(fields_of_digest digested).1, digested]

/-- Nothing but the manifests is changed where they are put. -/
theorem same_but_signed (tree : Tree) (nodes : List NodeDigest) :
    tree.SameBut ((nodes.map (·.directory)).map manifestPath) (signed tree nodes) := by
  induction nodes generalizing tree with
  | nil => exact .refl _ tree
  | cons node rest induction =>
      have first : tree.SameBut (((node :: rest).map (·.directory)).map manifestPath)
          (tree.putFile (manifestPath node.directory) node.digest) := by
        apply Tree.SameBut.put
        simp [Tree.isAt, Path.same_refl]
      apply first.trans
      apply (induction _).mono
      intro path there
      rw [Tree.isAt, List.map_cons, List.map_cons, List.any_cons, ← Tree.isAt, there, Bool.or_true]

theorem manifest_apart {directory : Path} {directories : List Path}
    (apart : directory.parts ∉ directories.map (·.parts)) :
    Tree.isAt (directories.map manifestPath) (manifestPath directory) = false := by
  rw [Bool.eq_false_iff, Ne, Tree.is_at_iff]
  rintro ⟨spot, member, same⟩
  obtain ⟨other, isOther, rfl⟩ := List.mem_map.mp member
  rw [manifest_same_iff, Path.same_iff_parts] at same
  exact apart (List.mem_map.mpr ⟨other, isOther, same.symm⟩)

/-- Where the directories are at places of their own, every manifest that was put holds what was
put in it. -/
theorem contents_signed {nodes : List NodeDigest}
    (apart : ((nodes.map (·.directory)).map (·.parts)).Nodup) (tree : Tree) {node : NodeDigest}
    (member : node ∈ nodes) :
    (signed tree nodes).contents? (manifestPath node.directory) = some node.digest := by
  induction nodes generalizing tree with
  | nil => exact absurd member List.not_mem_nil
  | cons first rest induction =>
      rw [List.map_cons, List.map_cons, List.nodup_cons] at apart
      rcases List.mem_cons.mp member with rfl | later
      · have untouched := (same_but_signed
          (tree.putFile (manifestPath node.directory) node.digest) rest).node
          (manifest_apart apart.1)
        rw [Tree.contents_of_node]
        exact untouched.trans (by rw [Tree.node_put, if_pos (Path.same_refl _)])
      · exact induction apart.2 _ later

/-! Aggregating one after the other -/

def Level (depth : Nat) (directories : List Path) : Prop :=
  ∀ directory ∈ directories, directory.parts.length = depth

/-- How aggregating some directories can end: with all their digests, or with an error from below
one of them after the manifests of those before it were put. -/
inductive Aggregated (order : ChecksumOrder) (tree : Tree) (directories : List Path) :
    Except ChecksumError (List NodeDigest) × Tree → Prop
  | complete (nodes : List NodeDigest) (digests : DigestsOf order tree directories nodes) :
      Aggregated order tree directories (.ok nodes, signed tree nodes)
  | stopped (front rest : List Path) (directory : Path) (nodes : List NodeDigest)
      (error : ChecksumError) (split : directories = front ++ directory :: rest)
      (digests : DigestsOf order tree front nodes)
      (blamed : error.path.startsWith directory = true) :
      Aggregated order tree directories (.error error, signed tree nodes)

namespace Level

variable {tree : Tree} {depth : Nat} {directories : List Path}

theorem not_manifest (level : Level depth directories) {owner directory : Path}
    (isOwner : owner ∈ directories) (member : directory ∈ directories) :
    directory.same (manifestPath owner) = false := by
  apply Path.not_same_of_length
  rw [length_manifest, level owner isOwner, level directory member]
  omega

/-- Digests that were made after the manifest of one directory was put follow the digest of that
directory. -/
theorem digests_cons {order : ChecksumOrder} {owner : Path} {node : NodeDigest}
    (level : Level depth (owner :: directories))
    (digested : nodeDigest order tree owner = .ok node) {nodes : List NodeDigest}
    (digests : DigestsOf order (tree.putFile (manifestPath owner) node.digest) directories nodes) :
    DigestsOf order tree (owner :: directories) (node :: nodes) := by
  rw [DigestsOf, List.map_cons, List.map_cons, digested, ← digests]
  congr 1
  apply List.map_congr_left
  intro directory member
  exact (node_digest_put_manifest order tree
    (level.not_manifest List.mem_cons_self (List.mem_cons_of_mem _ member)) node.digest).symm

/-- Each directory is aggregated as if it were the first. -/
theorem aggregate_each (level : Level depth directories) (anchored : tree.Anchored)
    (options : ChecksumOptions) :
    Aggregated options.order tree directories
      (perform (directories.mapM (aggregate files options)) tree) := by
  -- the manifests that are put on the way change no digest of a directory that is still to come
  induction directories generalizing tree with
  | nil => exact .complete [] rfl
  | cons directory rest induction =>
      rw [List.mapM_cons, perform_bind]
      cases result : perform (aggregate files options directory) tree with
      | mk outcome between =>
          cases outcome with
          | error error =>
              obtain ⟨rfl, blamed⟩ := path_of_aggregate_error result
              exact .stopped [] rest directory [] error rfl rfl blamed
          | ok node =>
              obtain ⟨digested, _, rfl⟩ := aggregate_puts anchored result
              have remaining : Level depth rest :=
                fun other member => level other (List.mem_cons_of_mem _ member)
              have others := induction remaining
                (Tree.anchored_put anchored (manifestPath directory) node.digest)
              have signedFirst (nodes : List NodeDigest) :
                  signed (tree.putFile (manifestPath directory) node.digest) nodes =
                    signed tree (node :: nodes) := by
                rw [signed, signed, List.foldl_cons, (fields_of_digest digested).1]
              simp only
              rw [perform_bind]
              generalize perform (rest.mapM (aggregate files options))
                (tree.putFile (manifestPath directory) node.digest) = ending at others
              cases others with
              | complete nodes digests =>
                  rw [signedFirst]
                  exact .complete (node :: nodes) (level.digests_cons digested digests)
              | stopped front later stop nodes error split digests blamed =>
                  subst split
                  have before : Level depth (directory :: front) := fun other member =>
                    level other (List.cons_subset_cons _ (List.subset_append_left _ _) member)
                  rw [signedFirst]
                  exact .stopped (directory :: front) later stop (node :: nodes) error rfl
                    (before.digests_cons digested digests) blamed

end Level

/-! Aggregating an output -/

theorem level_of_listed {tree : Tree} {output : Path} {entries : List Status}
    (listed : tree.list output = .ok entries) :
    Level (output.parts.length + 1) ((entries.filter (·.isDirectory)).map (·.path)) := by
  intro directory member
  exact Path.length_child (Tree.directory_of_listed listed member).1

/-- Directories at places of their own and at one depth have nothing below them in common. -/
theorem blamed_alone {depth : Nat} {directories : List Path}
    (level : Level depth directories) (apart : (directories.map (·.parts)).Nodup)
    {path left right : Path} {first second : Nat} (isFirst : directories[first]? = some left)
    (isSecond : directories[second]? = some right) (belowLeft : path.startsWith left = true)
    (belowRight : path.startsWith right = true) : first = second := by
  have lengths : left.parts.length = right.parts.length := by
    rw [level left (List.mem_of_getElem? isFirst), level right (List.mem_of_getElem? isSecond)]
  rw [Path.starts_with_iff_parts] at belowLeft belowRight
  have parts : left.parts = right.parts :=
    (List.prefix_of_prefix_length_le belowLeft belowRight lengths.le).eq_of_length lengths
  obtain ⟨within, _⟩ := List.getElem?_eq_some_iff.mp isFirst
  apply (List.getElem?_inj (by rw [List.length_map]; exact within) apart).mp
  rw [List.getElem?_map, List.getElem?_map, isFirst, isSecond, Option.map_some, Option.map_some,
    parts]

/-- If all directories under an output are aggregated, each gets the digest that it had before,
and nothing but their manifests has changed. If an error comes up instead, it names a path at or
below exactly one of the directories: those before it have manifests with the digests that they
had, and everything else is as it was, the later manifests included. -/
theorem aggregate_all_stops_cleanly {tree : Tree} (reachable : tree.Reachable)
    (options : ChecksumOptions) {output : Path} {entries : List Status} {directories : List Path}
    (listed : tree.list output = .ok entries)
    (isEach : directories = (entries.filter (·.isDirectory)).map (·.path)) :
    (∀ nodes after, perform (aggregateAll files options output) tree = (.ok nodes, after) →
      (directories.map fun directory => (perform (ofDirectory files options directory) tree).1) =
        nodes.map .ok ∧
      tree.SameBut (directories.map manifestPath) after ∧
      ∀ node ∈ nodes, after.contents? (manifestPath node.directory) = some node.digest) ∧
    ∀ error after, perform (aggregateAll files options output) tree = (.error error, after) →
      ∃ stop directory, directories[stop]? = some directory ∧
        error.path.startsWith directory = true ∧
        (∀ (other : Nat) (place : Path), directories[other]? = some place →
          error.path.startsWith place = true → other = stop) ∧
        tree.SameBut ((directories.take stop).map manifestPath) after ∧
        (∀ earlier ∈ directories.take stop, ∃ node,
          perform (ofDirectory files options earlier) tree = (.ok node, tree) ∧
          after.contents? (manifestPath earlier) = some node.digest) ∧
        ∀ later ∈ directories.drop stop,
          after.node? (manifestPath later) = tree.node? (manifestPath later) := by
  subst isEach
  have level := level_of_listed listed
  have apart : (((entries.filter (·.isDirectory)).map (·.path)).map (·.parts)).Nodup := by
    rw [List.map_map]
    exact (Tree.listed_apart reachable.distinct listed).sublist (List.filter_sublist.map _)
  have run : perform (aggregateAll files options output) tree =
      perform (((entries.filter (·.isDirectory)).map (·.path)).mapM (aggregate files options))
        tree := by
    rw [aggregateAll, perform_bind, perform_node_directories, nodeDirectoriesOf, listed]
  rw [run]
  generalize (entries.filter (·.isDirectory)).map (·.path) = directories at level apart
  have outcome := level.aggregate_each reachable.anchored options
  constructor
  · intro nodes after done
    rw [done] at outcome
    cases outcome with
    | complete _ digests =>
        have owners := directories_of_digests digests
        refine ⟨?_, ?_, ?_⟩
        · simp only [perform_of_directory]
          exact digests
        · rw [← owners]
          exact same_but_signed tree nodes
        · intro node member
          exact contents_signed (by rw [owners]; exact apart) tree member
  · intro error after failed
    rw [failed] at outcome
    cases outcome with
    | stopped front rest directory nodes _ split digests blamed =>
        have owners := directories_of_digests digests
        -- the directory at which it stopped stands behind those that have their digests
        have here : directories[front.length]? = some directory := by
          rw [split, List.getElem?_append_right (Nat.le_refl _), Nat.sub_self]
          rfl
        have before : directories.take front.length = front := by
          rw [split, List.take_left]
        have behind : directories.drop front.length = directory :: rest := by
          rw [split, List.drop_left]
        have apartParts := apart
        rw [split, List.map_append, List.nodup_append] at apartParts
        obtain ⟨frontApart, _, disjoint⟩ := apartParts
        have same : tree.SameBut (front.map manifestPath) (signed tree nodes) := by
          rw [← owners]
          exact same_but_signed tree nodes
        refine ⟨front.length, directory, here, blamed, ?_, ?_, ?_, ?_⟩
        · intro other place isPlace below
          exact blamed_alone level apart isPlace here below blamed
        · rw [before]
          exact same
        · intro earlier member
          rw [before, ← owners] at member
          obtain ⟨node, isNode, rfl⟩ := List.mem_map.mp member
          apply Exists.intro node
          rw [perform_of_directory, digest_of_digests digests isNode]
          exact ⟨rfl, contents_signed (by rw [owners]; exact frontApart) tree isNode⟩
        · intro later member
          rw [behind] at member
          apply same.node
          apply manifest_apart
          intro inFront
          exact disjoint _ inFront _ (List.mem_map_of_mem member) rfl

def pairTree : Tree :=
  (Tree.empty.addFile (.ofText "/out/a/0.data") [1]).addFile (.ofText "/out/b/0.data") [2]

def brokenPair : Tree := pairTree.failReads (.ofText "/out/b/0.data")

def firstNode : NodeDigest := .ofContents (.ofText "/out/a") [(.ofText "/out/a/0.data", [1])]

def secondNode : NodeDigest := .ofContents (.ofText "/out/b") [(.ofText "/out/b/0.data", [2])]

def pairEntries : List Status :=
  [.directory (.ofText "/out/a"), .directory (.ofText "/out/b")]

/-- Where the first of the two directories has its digest, what is left is the second. -/
theorem pair_after_first {tree : Tree}
    (listed : nodeDirectoriesOf tree (.ofText "/out") = .ok [.ofText "/out/a", .ofText "/out/b"])
    (digested : nodeDigest .listing tree (.ofText "/out/a") = .ok firstNode)
    (created : tree.create (manifestPath (.ofText "/out/a")) =
      .ok (tree.putFile (manifestPath (.ofText "/out/a")) [])) :
    perform (aggregateAll files {} (.ofText "/out")) tree =
      match perform (aggregate files {} (.ofText "/out/b")) (signed tree [firstNode]) with
      | (.ok node, after) => (.ok [firstNode, node], after)
      | (.error error, after) => (.error error, after) := by
  have done : perform (aggregate files {} (.ofText "/out/a")) tree =
      (.ok firstNode, signed tree [firstNode]) := by
    have stored := @aggregate_succeeds {} _ _ _ _ digested created
    rwa [Tree.put_put] at stored
  rw [aggregateAll, perform_bind, perform_node_directories, listed]
  simp only [List.mapM_cons, List.mapM_nil, pure_bind]
  rw [perform_bind_ok done, perform_bind, perform_bind]
  cases perform (aggregate files {} (.ofText "/out/b")) (signed tree [firstNode]) with
  | mk outcome after => cases outcome <;> rfl

theorem pair_aggregated :
    ∃ after, perform (aggregateAll files {} (.ofText "/out")) pairTree =
      (.ok [firstNode, secondNode], after) := by
  have first : nodeDigest .listing pairTree (.ofText "/out/a") = .ok firstNode := by
    rw [node_digest_listing]
    decide +kernel
  have second : nodeDigest .listing (signed pairTree [firstNode]) (.ofText "/out/b") =
      .ok secondNode := by
    rw [node_digest_listing]
    decide +kernel
  have created : ((signed pairTree [firstNode]).create
      (manifestPath (.ofText "/out/b"))).isOk = true := by decide +kernel
  obtain ⟨made, isMade⟩ := exists_ok created
  rw [pair_after_first (by decide +kernel) first (by decide +kernel),
    @aggregate_succeeds {} _ _ _ _ second isMade]
  exact ⟨_, rfl⟩

theorem broken_pair_refused :
    ∃ after, perform (aggregateAll files {} (.ofText "/out")) brokenPair =
      (.error (.read (.ofText "/out/b/0.data") injected), after) := by
  have first : nodeDigest .listing brokenPair (.ofText "/out/a") = .ok firstNode := by
    rw [node_digest_listing]
    decide +kernel
  have second : nodeDigest .listing (signed brokenPair [firstNode]) (.ofText "/out/b") =
      .error (.read (.ofText "/out/b/0.data") injected) := by
    rw [node_digest_listing]
    decide +kernel
  rw [pair_after_first (by decide +kernel) first (by decide +kernel), perform_aggregate, second]
  exact ⟨_, rfl⟩

theorem pair_stops_cleanly :
    (∃ after, perform (aggregateAll files {} (.ofText "/out")) pairTree =
        (.ok [firstNode, secondNode], after) ∧
      pairTree.SameBut [manifestPath (.ofText "/out/a"), manifestPath (.ofText "/out/b")] after ∧
      after.contents? (manifestPath (.ofText "/out/b")) = some secondNode.digest) ∧
    ∃ error after, perform (aggregateAll files {} (.ofText "/out")) brokenPair =
        (.error error, after) ∧
      brokenPair.SameBut [manifestPath (.ofText "/out/a")] after ∧
      after.node? (manifestPath (.ofText "/out/b")) = none := by
  have reachable : pairTree.Reachable :=
    ⟨[], .next (.next .start (.addFile _ _ _)) (.addFile _ _ _)⟩
  have brokenReachable : brokenPair.Reachable :=
    ⟨[], .next (.next (.next .start (.addFile _ _ _)) (.addFile _ _ _)) (.failReads _ _)⟩
  have listed : pairTree.list (.ofText "/out") = .ok pairEntries := by decide +kernel
  have brokenListed : brokenPair.list (.ofText "/out") = .ok pairEntries := by decide +kernel
  constructor
  · obtain ⟨after, done⟩ := pair_aggregated
    obtain ⟨_, same, signed⟩ :=
      (aggregate_all_stops_cleanly reachable {} listed rfl).1 _ _ done
    exact ⟨after, done, same, signed secondNode (by simp)⟩
  · obtain ⟨after, failed⟩ := broken_pair_refused
    obtain ⟨stop, directory, _, _, alone, same, _, later⟩ :=
      (aggregate_all_stops_cleanly brokenReachable {} brokenListed rfl).2 _ _ failed
    have second : 1 = stop := alone 1 (.ofText "/out/b") rfl (by decide +kernel)
    subst second
    refine ⟨_, after, failed, same, ?_⟩
    rw [later (.ofText "/out/b") (by decide +kernel)]
    decide +kernel

end Checksum

end ChunkStore
