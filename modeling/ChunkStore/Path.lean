/-!
File paths. A path is shown exactly as it was written, but two paths are the same place when
they have the same parts: repeated and trailing slashes count for nothing, and a single dot is a
part only where it leads a relative path. Joining, cutting and comparing are all by parts, and the
text of a shorter path is always a beginning of the longer one's.
-/

namespace ChunkStore

set_option autoImplicit false

/-- One step of a path. Their order is the order in which they are listed here, names by their
characters. -/
inductive PathPart
  | root
  | here
  | up
  | named (name : String)
deriving DecidableEq, Repr, Inhabited

namespace PathPart

def rank : PathPart → Nat
  | root => 0
  | here => 1
  | up => 2
  | named _ => 3

def le : PathPart → PathPart → Bool
  | named left, named right => !(decide (right < left))
  | left, right => left.rank ≤ right.rank

end PathPart

namespace Path

/-- Splits a text at every slash; there is always at least one segment. -/
def segments : List Char → List (List Char)
  | [] => [[]]
  | char :: rest =>
      match segments rest with
      | [] => [[char]]
      | segment :: others =>
          if char = '/' then [] :: segment :: others else (char :: segment) :: others

/-- Segments that name nothing: the empty ones between slashes, and single dots. -/
def isSkipped (segment : List Char) : Bool := segment == [] || segment == ['.']

def partOf (segment : List Char) : PathPart :=
  if segment = ['.', '.'] then .up else .named (String.ofList segment)

/-- The first segment says whether the path starts at the root, here, or with a name. -/
def headParts (segment : List Char) (alone : Bool) : List PathPart :=
  if segment = [] then (if alone then [] else [.root])
  else if segment = ['.'] then [.here]
  else [partOf segment]

def tailParts (segments : List (List Char)) : List PathPart :=
  (segments.filter fun segment => !isSkipped segment).map partOf

def partsOf (text : String) : List PathPart :=
  match segments text.toList with
  | [] => []
  | first :: rest => headParts first (rest == []) ++ tailParts rest

end Path

/-- A path as it was written, with the parts that it is read as, the last one first: paths that
are compared mostly differ at their ends. -/
structure Path where
  text : String
  upward : List PathPart := (Path.partsOf text).reverse
  upward_eq : upward = (Path.partsOf text).reverse := by rfl

namespace Path

def ofText (text : String) : Path := { text }

def parts (path : Path) : List PathPart := path.upward.reverse

instance : Inhabited Path := ⟨ofText ""⟩

instance : Repr Path := ⟨fun path _ => repr path.text⟩

@[simp] theorem text_of_text (text : String) : (ofText text).text = text := rfl

theorem eq_of_text_eq {left right : Path} (same : left.text = right.text) : left = right := by
  obtain ⟨leftText, leftParts, leftRead⟩ := left
  obtain ⟨rightText, rightParts, rightRead⟩ := right
  simp only at same
  subst same leftRead rightRead
  rfl

instance : DecidableEq Path := fun left right =>
  if same : left.text = right.text then isTrue (eq_of_text_eq same)
  else isFalse fun equal => same (congrArg Path.text equal)

def same (left right : Path) : Bool := left.upward == right.upward

theorem same_iff_parts (left right : Path) : left.same right = true ↔ left.parts = right.parts := by
  simp [same, parts]

def startsWith (path base : Path) : Bool := base.upward.isSuffixOf path.upward

theorem starts_with_iff_parts (path base : Path) :
    path.startsWith base = true ↔ base.parts <+: path.parts := by
  simp [startsWith, parts]

/-- The empty path and the root itself. -/
def isRoot (path : Path) : Bool := path.upward == [] || path.upward == [.root]

/-- The path one part shorter, unless it has no parts or ends at the root. -/
def parent? (path : Path) : Option Path :=
  match segments path.text.toList with
  | [] => none
  | first :: rest =>
    match rest.reverse.dropWhile isSkipped with
    | [] => if first = [] then none else some (ofText "")
    | _ :: before =>
      match (before.dropWhile isSkipped).reverse with
      | [] => some (ofText (if first = [] then "/" else String.ofList first))
      | kept => some (ofText (String.ofList (['/'].intercalate (first :: kept))))

def isChildOf (path base : Path) : Bool :=
  match path.upward with
  | [] | .root :: _ => false
  | _ :: above => above == base.upward

def ancestorsWithin : Nat → Path → List Path
  | 0, path => [path]
  | count + 1, path =>
      path :: match path.parent? with
        | none => []
        | some parent => ancestorsWithin count parent

/-- The path, its parent, its parent's parent and so on; every step drops a part. -/
def ancestors (path : Path) : List Path := ancestorsWithin path.upward.length path

/-- The last part if it is a name, else nothing. -/
def name (path : Path) : String :=
  match path.upward with
  | .named name :: _ => name
  | _ => ""

/-- Puts a second path after a first one, with one slash between them unless the first is empty
or ends with one. A second path that starts with a slash stands alone. -/
def join (base : Path) (tail : String) : Path :=
  if tail.toList.head? = some '/' then ofText tail
  else if base.text.toList = [] ∨ base.text.toList.getLast? = some '/' then
    ofText (base.text ++ tail)
  else ofText (base.text ++ "/" ++ tail)

/-- Paths sort by their parts, a shorter one before those below it. -/
def leParts : List PathPart → List PathPart → Bool
  | [], _ => true
  | _ :: _, [] => false
  | left :: lefts, right :: rights =>
      if left = right then leParts lefts rights else left.le right

def le (left right : Path) : Bool := leParts left.parts right.parts

end Path

end ChunkStore
