import ChunkStore.Bytes
import ChunkStore.FileSystem.Disk.Tree

/-!
The calls of a disk: asking about a path, making directories, files and links, removing them,
and reading and writing a file by its number, which goes on working after its name is gone.
-/

namespace ChunkStore.Disk.Tree

set_option autoImplicit false

def stat (tree : Tree) (text : String) : Except Refusal Nat := tree.locate true text

/-- The node a path leads to, without following a link that comes last. -/
def statLink (tree : Tree) (text : String) : Except Refusal Nat := tree.locate false text

def isDirectoryAt (tree : Tree) (text : String) : Bool :=
  match tree.stat text with
  | .ok number => (tree.node number).isDirectory
  | .error _ => false

def makeDirectory (tree : Tree) (text : String) : Except Refusal Tree := do
  let route ← Route.ofText? text
  match lastStep route.names with
  | .root => throw .entryExists
  | .dot | .dotDot =>
      let _ ← tree.locateParent route
      throw .entryExists
  | .name name =>
      let directory ← tree.locateParent route
      if 255 < name.utf8ByteSize then throw .nameTooLong
      else if (tree.child? directory name).isSome then throw .entryExists
      else
        let (number, after) := tree.addNode (.directory directory [])
        pure (after.addChild directory name number)

/-- Empties the file that names lead to, or makes it. A link that comes last is followed, also to
a file that is not there yet. A slash at the end is refused before the name is looked up. -/
def truncateAt (tree : Tree) (links base : Nat) (route : Route) : Except Refusal (Nat × Tree) :=
  match lastStep route.names with
  | .root => .error .isADirectory
  | .dot | .dotDot =>
    match tree.walk true links base route.names with
    | .error refusal => .error refusal
    | .ok _ => .error .isADirectory
  | .name name =>
    match found : tree.walkToParent links base route.names with
    | .error refusal => .error refusal
    | .ok ⟨directory, left⟩ =>
      if route.slashAtEnd then .error .isADirectory
      else if 255 < name.utf8ByteSize then .error .nameTooLong
      else match tree.child? directory name with
        | none =>
            let (number, after) := tree.addNode (.file .empty)
            .ok (number, after.addChild directory name number)
        | some number =>
          match tree.node number, left, links_le_of_walk_to_parent _ _ _ _ _ found with
          | .directory _ _, _, _ => .error .isADirectory
          | .file _, _, _ => .ok (number, tree.setNode number (.file .empty))
          | .link _, 0, _ => .error .tooManyLinks
          | .link target, still + 1, _ =>
            match Route.ofText? target with
            | .error refusal => .error refusal
            | .ok onward => truncateAt tree still (if onward.absolute then 0 else directory) onward
termination_by links

def truncate (tree : Tree) (text : String) : Except Refusal (Nat × Tree) := do
  let route ← Route.ofText? text
  tree.truncateAt linkLimit (tree.start route.absolute) route

/-- Makes a link. The target need not lead anywhere, but it must be a path. -/
def makeLink (tree : Tree) (target text : String) : Except Refusal Tree := do
  if hasNul target ∨ hasNul text then throw .nulInName
  let _ ← Route.ofText? target
  let route ← Route.ofText? text
  match lastStep route.names with
  | .root => throw .entryExists
  | .dot | .dotDot =>
      let _ ← tree.locateParent route
      throw .entryExists
  | .name name =>
      let directory ← tree.locateParent route
      if 255 < name.utf8ByteSize then throw .nameTooLong
      else if (tree.child? directory name).isSome then throw .entryExists
      else if route.slashAtEnd then throw .noEntry
      else
        let (number, after) := tree.addNode (.link target)
        pure (after.addChild directory name number)

def unlink (tree : Tree) (text : String) : Except Refusal Tree := do
  let route ← Route.ofText? text
  match lastStep route.names with
  | .root | .dot | .dotDot => throw .isADirectory
  | .name name =>
      let directory ← tree.locateParent route
      match tree.child? directory name with
      | none => throw .noEntry
      | some number =>
          if (tree.node number).isDirectory then throw .isADirectory
          else pure (tree.removeChild directory name)

def removeDirectory (tree : Tree) (text : String) : Except Refusal Tree := do
  let route ← Route.ofText? text
  let parent := tree.locateParent route
  match lastStep route.names with
  | .root => throw .busy
  | .dot => let _ ← parent; throw .invalid
  | .dotDot => let _ ← parent; throw .notEmpty
  | .name name =>
      let directory ← parent
      match tree.child? directory name with
      | none => throw .noEntry
      | some number =>
        match tree.node number with
        | .directory _ [] => pure (tree.removeChild directory name)
        | .directory _ _ => throw .notEmpty
        | _ => throw .notADirectory

def clear : Nat → Tree → Nat → Tree
  | 0, tree, _ => tree
  | depth + 1, tree, directory =>
    match tree.node directory with
    | .directory parent children =>
        let below := children.foldl (fun tree entry => clear depth tree entry.2) tree
        below.setNode directory (.directory parent [])
    | _ => tree

/-- Removes a path with everything below it, a link without what it leads to, and says whether
anything was there. A directory is emptied before its own name is tried; a name that leads through
what was taken from it is gone already. -/
def deleteTree (tree : Tree) (text : String) : Except Refusal Bool × Tree :=
  match tree.statLink text with
  | .error .noEntry => (.ok false, tree)
  | .error refusal => (.error refusal, tree)
  | .ok number =>
    if (tree.node number).isDirectory then
      let cleared := tree.clear tree.nodes.size number
      match cleared.removeDirectory text with
      | .ok after => (.ok true, after)
      | .error .noEntry => (.ok true, cleared)
      | .error refusal => (.error refusal, cleared)
    else
      match tree.unlink text with
      | .ok after => (.ok true, after)
      | .error refusal => (.error refusal, tree)

/-- Makes the missing directories of a path, given with everything above it, the longest first.
What was made before a refusal stays. -/
def makeDirectories (tree : Tree) : List String → Except Refusal Unit × Tree
  | [] => (.ok (), tree)
  | text :: above =>
    if text = "" then (.ok (), tree)
    else match tree.makeDirectory text with
      | .ok after => (.ok (), after)
      | .error .noEntry =>
        match makeDirectories tree above with
        | (.error refusal, after) => (.error refusal, after)
        | (.ok (), after) =>
          match after.makeDirectory text with
          | .ok made => (.ok (), made)
          | .error refusal =>
              if after.isDirectoryAt text then (.ok (), after) else (.error refusal, after)
      | .error refusal =>
          if tree.isDirectoryAt text then (.ok (), tree) else (.error refusal, tree)

def lengthOf (tree : Tree) (number : Nat) : Nat :=
  match tree.node number with
  | .file contents => contents.size
  | _ => 0

def readAt (tree : Tree) (number position size : Nat) : Except Refusal Bytes :=
  match tree.node number with
  | .file contents => .ok (contents.extract position (position + size)).data.toList
  | _ => .error .isADirectory

/-- Writes over a file from a position on; a gap before it is filled with zeros. -/
def writeAt (tree : Tree) (number position : Nat) (piece : Bytes) : Tree :=
  match tree.node number with
  | .file contents =>
      let gap := List.replicate (position - contents.size) (0 : UInt8)
      let front := contents.extract 0 position ++ ⟨gap.toArray⟩ ++ ⟨piece.toArray⟩
      tree.setNode number
        (.file (front ++ contents.extract (position + piece.length) contents.size))
  | _ => tree

end ChunkStore.Disk.Tree
