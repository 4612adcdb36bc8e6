import ChunkStore.Proofs.ListingOrder
import ChunkStore.Proofs.Streaming

/-!
Checksum order by name. Entries whose names differ are put in one order whatever order they come
in, so the digest of a directory is the same however the order was in which its files were made.
-/

namespace ChunkStore

set_option autoImplicit false

open Stateful Memory

/-- What can be told from a view of the elements is the same for lists that look the same. -/
theorem filter_map_of_view {α β γ : Type} {view : α → β} {pick : α → Option γ}
    (coarser : ∀ left right, view left = view right → pick left = pick right)
    {left right : List α} (same : left.map view = right.map view) :
    left.filterMap pick = right.filterMap pick := by
  have factors : pick.FactorsThrough view := @coarser
  obtain ⟨told, rfl⟩ := (Function.factorsThrough_iff pick).mp factors
  rw [← List.filterMap_map, same, List.filterMap_map]

namespace ChecksumOrder

/-! Sorted by name there is one order -/

theorem le_congr (order : ChecksumOrder) {left right other another : Status}
    (leftName : left.name = other.name) (leftKind : left.isDirectory = other.isDirectory)
    (rightName : right.name = another.name) (rightKind : right.isDirectory = another.isDirectory) :
    order.le left right = order.le other another := by
  have rank {first second : Status} (name : first.name = second.name)
      (kind : first.isDirectory = second.isDirectory) :
      EntryKind.ofStatus first = EntryKind.ofStatus second := by
    rw [EntryKind.ofStatus, EntryKind.ofStatus, name, kind]
  unfold le
  rw [rank leftName leftKind, rank rightName rightKind, leftName, rightName]

theorem name_of_le_le {left right : Status} (forward : byName.le left right = true)
    (backward : byName.le right left = true) : left.name = right.name := by
  simp only [le, Bool.or_eq_true, Bool.and_eq_true, decide_eq_true_eq, beq_iff_eq,
    Bool.not_eq_true', decide_eq_false_iff_not, String.not_lt] at forward backward
  rcases forward with below | ⟨equal, names⟩
  · rcases backward with above | ⟨equal, _⟩ <;> omega
  · rcases backward with above | ⟨_, others⟩
    · omega
    · exact String.le_antisymm names others

section views

variable {β : Type} {view : Status → β}
  (tells : ∀ left right, view left = view right →
    left.name = right.name ∧ left.isDirectory = right.isDirectory)
  {left right : List Status} (perm : (left.map view).Perm (right.map view))
  (apart : (left.map Status.name).Nodup)

include tells perm apart

/-- Where all names differ, the order of the entries says nothing of how they are arranged. -/
theorem arrange_of_perm :
    (byName.arrange left).map view = (byName.arrange right).map view := by
  have ordered (entries : List Status) : ((byName.arrange entries).map view).Pairwise
      fun first second => ∃ lower upper, view lower = first ∧ view upper = second ∧
        byName.le lower upper = true := by
    rw [List.pairwise_map]
    apply (List.pairwise_mergeSort byName.ordering.trans byName.ordering.total entries).imp
    intro lower upper below
    exact ⟨lower, upper, rfl, rfl, below⟩
  have permuted (entries : List Status) :
      ((byName.arrange entries).map view).Perm (entries.map view) :=
    (List.mergeSort_perm entries byName.le).map view
  apply List.Perm.eq_of_pairwise _ (ordered left) (ordered right)
    ((permuted left).trans (perm.trans (permuted right).symm))
  rintro _ _ inLeft inRight ⟨lower, upper, rfl, rfl, forward⟩ ⟨above, below, sameUp, sameLow, back⟩
  have upperTold := tells _ _ sameUp
  have lowerTold := tells _ _ sameLow
  rw [byName.le_congr upperTold.1 upperTold.2 lowerTold.1 lowerTold.2] at back
  have oneName := name_of_le_le forward back
  obtain ⟨first, isFirst, firstView⟩ := List.mem_map.mp ((permuted left).mem_iff.mp inLeft)
  obtain ⟨second, isSecond, secondView⟩ :=
    List.mem_map.mp (perm.mem_iff.mpr ((permuted right).mem_iff.mp inRight))
  have names : first.name = second.name := by
    rw [(tells _ _ firstView).1, (tells _ _ secondView).1, oneName]
  rw [← firstView, ← secondView, List.inj_on_of_nodup_map apart isFirst isSecond names]

theorem inputs_of_perm (manifest : String) :
    (byName.inputs manifest left).map view = (byName.inputs manifest right).map view := by
  have picked (entries : List Status) : (byName.inputs manifest entries).map view =
      (byName.arrange entries).filterMap fun status =>
        if !status.isDirectory && !status.isHidden && status.name != manifest then
          some (view status) else none := by
    rw [inputs, ← List.filterMap_eq_map, List.filterMap_filter]
    rfl
  rw [picked, picked]
  apply filter_map_of_view _ (arrange_of_perm tells perm apart)
  intro first second same
  obtain ⟨name, kind⟩ := tells first second same
  rw [same, Status.isHidden, Status.isHidden, name, kind]

end views

theorem arrange_eq_of_perm {left right : List Status} (perm : left.Perm right)
    (apart : (left.map Status.name).Nodup) : byName.arrange left = byName.arrange right := by
  have viewed := @arrange_of_perm Status id
    (fun _ _ same => ⟨congrArg Status.name same, congrArg Status.isDirectory same⟩) left right
    (perm.map id) apart
  rwa [List.map_id, List.map_id] at viewed

theorem inputs_eq_of_perm {left right : List Status} (perm : left.Perm right)
    (apart : (left.map Status.name).Nodup) (manifest : String) :
    byName.inputs manifest left = byName.inputs manifest right := by
  rw [inputs, inputs, arrange_eq_of_perm perm apart]

end ChecksumOrder

/-- Where a listed entry is, however its path is written, and whether it is a directory. -/
def Status.place (status : Status) : List PathPart × Bool := (status.path.parts, status.isDirectory)

theorem Status.told_by_place (left right : Status) (same : left.place = right.place) :
    left.name = right.name ∧ left.isDirectory = right.isDirectory := by
  obtain ⟨parts, kind⟩ := Prod.mk.inj same
  exact ⟨Path.name_congr ((Path.same_iff_parts _ _).mpr parts), kind⟩

namespace Memory

def Entry.place (entry : Entry) : List PathPart × Node := (entry.path.parts, entry.node)

/-- A directory of a reachable tree in which no read is made to fail. -/
structure Tree.HealthyAt (tree : Tree) (directory : Path) : Prop where
  reachable : tree.Reachable
  healthy : tree.failing = []
  present : tree.isPresent directory = true
  noFile : tree.isFile directory = false

theorem Tree.HealthyAt.listed {tree : Tree} {directory : Path}
    (healthy : tree.HealthyAt directory) : tree.list directory = .ok (tree.children directory) := by
  apply list_of_open
  have present := healthy.present
  rw [isPresent, Bool.or_eq_true] at present
  rcases present with root | there
  · exact Or.inr ⟨root, healthy.noFile⟩
  · obtain ⟨node, found⟩ := Option.isSome_iff_exists.mp there
    cases node with
    | directory => exact Or.inl found
    | file contents =>
        have noFile := healthy.noFile
        rw [isFile, contents?, found] at noFile
        exact absurd noFile (by simp [Node.contents?])

theorem Entry.kind_status (entry : Entry) : entry.status.isDirectory = entry.node.isDirectory := by
  unfold Entry.status
  split
  · rename_i node
    rw [node]
    rfl
  · rename_i contents node
    rw [node]
    rfl

theorem Tree.places_of_children (tree : Tree) (directory : Path) :
    (tree.children directory).map Status.place =
      ((tree.childEntries directory).map Entry.place).map fun place =>
        (place.1, place.2.isDirectory) := by
  rw [children, List.map_map, List.map_map]
  apply List.map_congr_left
  intro entry _
  rw [Function.comp_apply, Status.place, path_status, Entry.kind_status]
  rfl

theorem Tree.contents_of_perm {left right : Tree} (distinct : right.Distinct) {directory : Path}
    (perm : ((left.childEntries directory).map Entry.place).Perm
      ((right.childEntries directory).map Entry.place))
    {path : Path} (child : path.isChildOf directory = true) {contents : Bytes}
    (held : left.contents? path = some contents) : right.contents? path = some contents := by
  rw [contents_of_node, node?, Option.map_eq_some_iff] at held
  obtain ⟨entry, found, node⟩ := held
  obtain ⟨member, same⟩ := found_same found
  have inside : entry ∈ left.childEntries directory := by
    apply List.mem_filter.mpr
    exact ⟨member, (is_child_of_same same).trans child⟩
  obtain ⟨other, isOther, place⟩ := List.mem_map.mp (perm.mem_iff.mp (List.mem_map_of_mem inside))
  obtain ⟨parts, sameNode⟩ := Prod.mk.inj place
  rw [contents_of_node, ← node, ← sameNode]
  apply node_of_mem distinct (List.mem_filter.mp isOther).1
  rw [Path.same_iff_parts] at same ⊢
  rw [parts, same]

end Memory

namespace Checksum

theorem contents_of_inputs {tree : Tree} {inputs : List (Path × Bytes)}
    (held : ∀ input ∈ inputs, tree.contents? input.1 = some input.2) :
    (inputs.filterMap fun input => tree.contents? input.1) = inputs.map (·.2) := by
  rw [← List.filterMap_eq_map]
  exact List.filterMap_congr held

section inputs

variable {left right : Tree} {directory : Path}
  (perm : ((left.childEntries directory).map Entry.place).Perm
    ((right.childEntries directory).map Entry.place))
  {leftInputs rightInputs : List (Path × Bytes)}
  (leftPaths : leftInputs.map (·.1) =
    (ChecksumOrder.byName.inputs manifestName (left.children directory)).map (·.path))

include perm leftPaths

/-- With the same children, files at the same places are digested in the same order. -/
theorem places_of_inputs (apart : ((left.children directory).map Status.name).Nodup)
    (rightPaths : rightInputs.map (·.1) =
      (ChecksumOrder.byName.inputs manifestName (right.children directory)).map (·.path)) :
    leftInputs.map (·.1.parts) = rightInputs.map (·.1.parts) := by
  have alike : (ChecksumOrder.byName.inputs manifestName (left.children directory)).map
      Status.place =
        (ChecksumOrder.byName.inputs manifestName (right.children directory)).map
          Status.place := by
    apply ChecksumOrder.inputs_of_perm Status.told_by_place _ apart
    rw [Tree.places_of_children, Tree.places_of_children]
    exact perm.map _
  have parts := congrArg (List.map Prod.fst) alike
  have leftParts := congrArg (List.map Path.parts) leftPaths
  have rightParts := congrArg (List.map Path.parts) rightPaths
  rw [List.map_map, List.map_map] at parts leftParts rightParts
  exact leftParts.trans (parts.trans rightParts.symm)

theorem contents_of_places (distinct : right.Distinct)
    (leftHeld : ∀ input ∈ leftInputs, left.contents? input.1 = some input.2)
    (rightHeld : ∀ input ∈ rightInputs, right.contents? input.1 = some input.2)
    (places : leftInputs.map (·.1.parts) = rightInputs.map (·.1.parts)) :
    leftInputs.map (·.2) = rightInputs.map (·.2) := by
  have held (input : Path × Bytes) (member : input ∈ leftInputs) :
      right.contents? input.1 = some input.2 := by
    apply Tree.contents_of_perm distinct perm _ (leftHeld input member)
    have isPath : input.1 ∈ leftInputs.map (·.1) := List.mem_map_of_mem member
    rw [leftPaths] at isPath
    obtain ⟨status, isInput, path⟩ := List.mem_map.mp isPath
    rw [← path]
    exact (Tree.present_of_child (ChecksumOrder.mem_inputs isInput).1).2
  rw [← contents_of_inputs held, ← contents_of_inputs rightHeld]
  apply filter_map_of_view _ places
  intro first second same
  rw [Tree.contents?, Tree.contents?, Tree.node_congr right ((Path.same_iff_parts _ _).mpr same)]

end inputs

/-- Entries with different names are arranged by name in one way, whatever order they come in, and
so are those of them that are digested. Directories with the same children, made in any order, have
therefore one digest by name: of the same files, in the same order, with as many bytes. -/
theorem by_name_ignores_creation_order :
    (∀ (left right : List Status) (manifest : String),
      left.Perm right → (left.map Status.name).Nodup →
      ChecksumOrder.byName.arrange left = ChecksumOrder.byName.arrange right ∧
      ChecksumOrder.byName.inputs manifest left = ChecksumOrder.byName.inputs manifest right) ∧
    ∀ (left right : Tree) (directory : Path),
      left.HealthyAt directory → right.HealthyAt directory →
      ((left.childEntries directory).map Entry.place).Perm
        ((right.childEntries directory).map Entry.place) →
      ((left.children directory).map Status.name).Nodup →
      ∃ leftNode rightNode,
        (∀ bufferSize, perform (ofDirectory files { bufferSize, order := .byName } directory) left =
          (.ok leftNode, left)) ∧
        (∀ bufferSize,
          perform (ofDirectory files { bufferSize, order := .byName } directory) right =
            (.ok rightNode, right)) ∧
        leftNode.digest = rightNode.digest ∧
        leftNode.files.map (·.parts) = rightNode.files.map (·.parts) ∧
        leftNode.bytes = rightNode.bytes ∧
        ((left.childEntries directory).Perm (right.childEntries directory) →
          leftNode = rightNode) := by
  constructor
  · intro left right manifest perm apart
    exact ⟨ChecksumOrder.arrange_eq_of_perm perm apart,
      ChecksumOrder.inputs_eq_of_perm perm apart manifest⟩
  · intro left right directory leftHealthy rightHealthy perm apart
    obtain ⟨leftInputs, leftPaths, leftHeld, leftDone⟩ := of_directory_reference
      leftHealthy.reachable.distinct leftHealthy.healthy leftHealthy.listed .byName
    obtain ⟨rightInputs, rightPaths, rightHeld, rightDone⟩ := of_directory_reference
      rightHealthy.reachable.distinct rightHealthy.healthy rightHealthy.listed .byName
    have places := places_of_inputs perm leftPaths apart rightPaths
    have contents := contents_of_places perm leftPaths rightHealthy.reachable.distinct leftHeld
      rightHeld places
    have digests : (NodeDigest.ofContents directory leftInputs).digest =
        (NodeDigest.ofContents directory rightInputs).digest := by
      rw [NodeDigest.ofContents, NodeDigest.ofContents, contents]
    have bytes : (NodeDigest.ofContents directory leftInputs).bytes =
        (NodeDigest.ofContents directory rightInputs).bytes := by
      have lengths := congrArg (fun list => (list.map List.length).sum) contents
      simp only [List.map_map] at lengths
      exact lengths
    refine ⟨_, _, leftDone, rightDone, digests, ?_, bytes, ?_⟩
    · simp only [NodeDigest.ofContents, List.map_map]
      exact places
    · intro entries
      have statuses : (left.children directory).Perm (right.children directory) :=
        entries.map Entry.status
      have paths : leftInputs.map (·.1) = rightInputs.map (·.1) := by
        rw [leftPaths, rightPaths, ChecksumOrder.inputs_eq_of_perm statuses apart]
      rw [NodeDigest.ofContents, NodeDigest.ofContents, NodeDigest.mk.injEq]
      exact ⟨rfl, digests, paths, bytes⟩

def swappedTree : Tree :=
  (Tree.empty.addFile (.ofText "/node/0.index") [3]).addFile (.ofText "/node/0.data") [1, 2]

theorem swapped_chunk_alike :
    ChecksumOrder.byName.arrange (chunkTree.children (.ofText "/node")) =
      ChecksumOrder.byName.arrange (swappedTree.children (.ofText "/node")) ∧
    ∃ node, ∀ bufferSize,
      perform (ofDirectory files { bufferSize, order := .byName } (.ofText "/node")) chunkTree =
        (.ok node, chunkTree) ∧
      perform (ofDirectory files { bufferSize, order := .byName } (.ofText "/node")) swappedTree =
        (.ok node, swappedTree) := by
  obtain ⟨ofLists, ofTrees⟩ := by_name_ignores_creation_order
  have perm : (chunkTree.childEntries (.ofText "/node")).Perm
      (swappedTree.childEntries (.ofText "/node")) := by decide +kernel
  have apart : ((chunkTree.children (.ofText "/node")).map Status.name).Nodup := by decide +kernel
  have healthy : chunkTree.HealthyAt (.ofText "/node") :=
    ⟨⟨[], .next (.next .start (.addFile _ _ _)) (.addFile _ _ _)⟩, rfl, by decide +kernel,
      by decide +kernel⟩
  have swappedHealthy : swappedTree.HealthyAt (.ofText "/node") :=
    ⟨⟨[], .next (.next .start (.addFile _ _ _)) (.addFile _ _ _)⟩, rfl, by decide +kernel,
      by decide +kernel⟩
  constructor
  · exact (ofLists _ _ manifestName (perm.map Entry.status) apart).1
  · obtain ⟨node, other, done, otherDone, _, _, _, same⟩ :=
      ofTrees chunkTree swappedTree (.ofText "/node") healthy swappedHealthy
        (perm.map Entry.place) apart
    apply Exists.intro node
    intro bufferSize
    exact ⟨done bufferSize, same perm ▸ otherDone bufferSize⟩

end Checksum

end ChunkStore
