import ChunkStore.IoError

/-!
A disk as a table of numbered nodes: directories with named children, files, and symbolic links.
A name is looked up one segment at a time, and a link met on the way is replaced by the segments
of its target. At most forty links are followed in one look-up.
-/

namespace ChunkStore.Disk

set_option autoImplicit false

inductive Refusal
  | noEntry
  | entryExists
  | notADirectory
  | isADirectory
  | notEmpty
  | busy
  | invalid
  | nameTooLong
  | tooManyLinks
  | nulInName
deriving DecidableEq, Repr

def Refusal.error : Refusal → IoError
  | .noEntry => ⟨.notFound, "No such file or directory (os error 2)"⟩
  | .entryExists => ⟨.alreadyExists, "File exists (os error 17)"⟩
  | .notADirectory => ⟨.notADirectory, "Not a directory (os error 20)"⟩
  | .isADirectory => ⟨.isADirectory, "Is a directory (os error 21)"⟩
  | .notEmpty => ⟨.directoryNotEmpty, "Directory not empty (os error 39)"⟩
  | .busy => ⟨.resourceBusy, "Device or resource busy (os error 16)"⟩
  | .invalid => ⟨.invalidInput, "Invalid argument (os error 22)"⟩
  | .nameTooLong => ⟨.invalidFilename, "File name too long (os error 36)"⟩
  | .tooManyLinks => ⟨.filesystemLoop, "Too many levels of symbolic links (os error 40)"⟩
  | .nulInName => ⟨.invalidInput, "file name contained an unexpected NUL byte"⟩

/-- A directory knows its parent, and its children by name in the order of their names. -/
inductive Node
  | directory (parent : Nat) (children : List (String × Nat))
  | file (contents : ByteArray)
  | link (target : String)

instance : Inhabited Node := ⟨.file .empty⟩

def Node.isDirectory : Node → Bool
  | .directory _ _ => true
  | _ => false

/-- The root has number zero; relative paths start at the current directory. -/
structure Tree where
  nodes : Array Node
  current : Nat

namespace Tree

def empty : Tree := ⟨#[.directory 0 []], 0⟩

def node (tree : Tree) (number : Nat) : Node := tree.nodes.getD number default

def setNode (tree : Tree) (number : Nat) (node : Node) : Tree :=
  { tree with nodes := tree.nodes.setIfInBounds number node }

def addNode (tree : Tree) (node : Node) : Nat × Tree :=
  (tree.nodes.size, { tree with nodes := tree.nodes.push node })

def child? (tree : Tree) (directory : Nat) (name : String) : Option Nat :=
  match tree.node directory with
  | .directory _ children => children.lookup name
  | _ => none

def insertChild (name : String) (number : Nat) : List (String × Nat) → List (String × Nat)
  | [] => [(name, number)]
  | (other, otherNumber) :: rest =>
      if name < other then (name, number) :: (other, otherNumber) :: rest
      else if name = other then (name, number) :: rest
      else (other, otherNumber) :: insertChild name number rest

def addChild (tree : Tree) (directory : Nat) (name : String) (number : Nat) : Tree :=
  match tree.node directory with
  | .directory parent children =>
      tree.setNode directory (.directory parent (insertChild name number children))
  | _ => tree

def removeChild (tree : Tree) (directory : Nat) (name : String) : Tree :=
  match tree.node directory with
  | .directory parent children =>
      tree.setNode directory (.directory parent (children.filter fun entry => entry.1 != name))
  | _ => tree

end Tree

structure Route where
  absolute : Bool
  names : List String
  slashAtEnd : Bool
deriving DecidableEq, Repr

def namesOf (text : String) : List String :=
  (text.splitOn "/").filter (· ≠ "")

def hasNul (text : String) : Bool := text.toList.contains '\x00'

def Route.ofText? (text : String) : Except Refusal Route :=
  if hasNul text then .error .nulInName
  else if text = "" then .error .noEntry
  else if 4096 ≤ text.utf8ByteSize then .error .nameTooLong
  else .ok
    { absolute := text.toList.head? == some '/'
      names := namesOf text
      slashAtEnd := text.toList.getLast? == some '/' }

/-- The names of a route to a node itself: a slash at the end asks for a directory, as a dot
after it would. -/
def Route.allNames (route : Route) : List String :=
  if route.slashAtEnd then route.names ++ ["."] else route.names

structure Reached where
  place : Nat
  links : Nat
deriving DecidableEq, Repr

namespace Tree

def start (tree : Tree) (absolute : Bool) : Nat := if absolute then 0 else tree.current

/-- Follows names from a directory, over at most so many links. A link that comes last is followed
only if asked for. -/
def walk (tree : Tree) (follow : Bool) (links : Nat) (place : Nat) (names : List String) :
    Except Refusal Reached :=
  match names with
  | [] => .ok ⟨place, links⟩
  | name :: rest =>
    match tree.node place with
    | .directory parent children =>
        if name = "." then walk tree follow links place rest
        else if name = ".." then walk tree follow links parent rest
        else if 255 < name.utf8ByteSize then .error .nameTooLong
        else match children.lookup name with
          | none => .error .noEntry
          | some number =>
            match tree.node number with
            | .link target =>
                if rest = [] ∧ ¬ follow then .ok ⟨number, links⟩
                else match links with
                  | 0 => .error .tooManyLinks
                  | links + 1 =>
                    match Route.ofText? target with
                    | .error refusal => .error refusal
                    | .ok route =>
                        walk tree follow links (if route.absolute then 0 else place)
                          (route.allNames ++ rest)
            | _ => walk tree follow links number rest
    | _ => .error .notADirectory
termination_by (links, names.length)

theorem links_le_of_walk (tree : Tree) (follow : Bool) (links place : Nat) (names : List String)
    (reached : Reached) (found : tree.walk follow links place names = .ok reached) :
    reached.links ≤ links := by
  fun_induction walk tree follow links place names <;> grind

def linkLimit : Nat := 40

def locate (tree : Tree) (follow : Bool) (text : String) : Except Refusal Nat := do
  let route ← Route.ofText? text
  return (← tree.walk follow linkLimit (tree.start route.absolute) route.allNames).place

inductive LastStep
  | root
  | dot
  | dotDot
  | name (name : String)
deriving DecidableEq, Repr

def lastStep (names : List String) : LastStep :=
  match names.getLast? with
  | none => .root
  | some "." => .dot
  | some ".." => .dotDot
  | some name => .name name

def walkToParent (tree : Tree) (links base : Nat) (names : List String) :
    Except Refusal Reached :=
  match tree.walk true links base names.dropLast with
  | .error refusal => .error refusal
  | .ok reached =>
      if (tree.node reached.place).isDirectory then .ok reached else .error .notADirectory

theorem links_le_of_walk_to_parent (tree : Tree) (links base : Nat) (names : List String)
    (reached : Reached) (found : tree.walkToParent links base names = .ok reached) :
    reached.links ≤ links := by
  unfold walkToParent at found
  split at found
  · simp at found
  · rename_i walked
    split at found
    · obtain rfl := Except.ok.inj found
      exact links_le_of_walk tree true links base _ _ walked
    · simp at found

def locateParent (tree : Tree) (route : Route) : Except Refusal Nat :=
  (tree.walkToParent linkLimit (tree.start route.absolute) route.names).map Reached.place

end Tree

end ChunkStore.Disk
