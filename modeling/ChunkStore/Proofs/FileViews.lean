import ChunkStore.FileSystem.Disk
import ChunkStore.Proofs.Digests

/-!
Views of file systems. A view says what a state lists, what is there and what its files hold; the
calls of the file system answer by it, and asking changes nothing. Files in memory have one and so
has a disk, and what is read of a file through any buffer is what the view says that it holds.
-/

namespace ChunkStore

set_option autoImplicit false

open Stateful

namespace FileSystem

variable {m : Type → Type} [Monad m] {Reader Writer σ : Type} [Stateful m σ]

/-- How an opened file is read: its reader delivers what the file holds, or every read fails. -/
inductive Opened (files : FileSystem m Reader Writer) (state : σ) (reader : Reader) :
    Except IoError Bytes → Prop
  | whole {contents : Bytes} {ahead : Bytes → Reader × σ → Prop}
      (delivers : Source.Delivers files.read ahead) (ready : ahead contents (reader, state))
      (patient : contents.length ≤ files.patience reader)
      (still : ∀ bytes after, ahead bytes after → after.2 = state) :
      Opened files state reader (.ok contents)
  | failing {error : IoError} (lasting : error.isInterruption = false)
      (fails : ∀ size, 0 < size → ∃ left,
        perform (files.read size) (reader, state) = (.error error, left, state)) :
      Opened files state reader (.error error)

theorem Opened.collect {files : FileSystem m Reader Writer} {state : σ} {reader : Reader}
    {held : Except IoError Bytes} (opened : Opened files state reader held) {size : Nat}
    (room : 0 < size) :
    ∃ left, perform (Source.collect files.read size (files.patience reader + 1) [])
      (reader, state) = (held, left, state) := by
  cases opened with
  | whole delivers ready patient still =>
      rcases Source.collect_delivers delivers room _ [] _ _ ready (Nat.le_succ_of_le patient) with
        ⟨after, collected, ended⟩
      refine ⟨after.1, ?_⟩
      rw [collected, ← still [] after ended]
      rfl
  | failing lasting fails =>
      rcases fails size room with ⟨left, read⟩
      refine ⟨left, ?_⟩
      rw [Source.collect, perform_bind, perform_outcome, read]
      simp only [lasting, Bool.false_eq_true, if_false, perform_throw]

/-- What the calls that only ask are answered by. -/
structure View (files : FileSystem m Reader Writer) where
  list : σ → Path → Except IoError (List Status)
  isPresent : σ → Path → Except IoError Bool
  contents : σ → Path → Except IoError Bytes
  listed : ∀ state path, perform (files.list path) state = (list state path, state)
  asked : ∀ state path, perform (files.exists? path) state = (isPresent state path, state)
  opened : ∀ state path,
    (∃ error, contents state path = .error error ∧
      perform (files.openReader path) state = (.error error, state)) ∨
    ∃ reader, perform (files.openReader path) state = (.ok reader, state) ∧
      Opened files state reader (contents state path)
  present_of_contents : ∀ state path bytes,
    contents state path = .ok bytes → isPresent state path = .ok true

namespace View

variable {files : FileSystem m Reader Writer} (view : View files)

/-- Reading a file in one way or another gives what the view says that it holds. -/
theorem perform_reading {ε : Type} (wrap : IoError → ε) (path : Path) (state : σ)
    {body : Nat → ExceptT ε (StateT Reader m) Bytes}
    (reads : ∀ reader held, Opened files state reader held → ∃ left,
      perform (body (files.patience reader + 1)) (reader, state) =
        (held.mapError wrap, left, state)) :
    perform (files.reading wrap path body) state =
      ((view.contents state path).mapError wrap, state) := by
  rw [Stateful.perform_reading]
  rcases view.opened state path with ⟨error, holds, refused⟩ | ⟨reader, opens, opened⟩
  · rw [refused, holds]
    rfl
  · rcases reads reader _ opened with ⟨left, read⟩
    rw [opens]
    simp only [read]

theorem perform_read_whole (path : Path) (state : σ) :
    perform (files.readWhole path) state = (view.contents state path, state) := by
  have unchanged (held : Except IoError Bytes) : held.mapError id = held := by cases held <;> rfl
  rw [FileSystem.readWhole, ← unchanged (view.contents state path)]
  apply view.perform_reading
  intro reader held opened
  rw [unchanged]
  exact opened.collect (by decide)

end View

end FileSystem

/-! Files in memory -/

namespace Memory

def view : FileSystem.View files where
  list := Tree.list
  isPresent tree path := .ok (tree.isPresent path)
  contents := Checksum.wholeFile
  listed tree path := perform_list path tree
  asked tree path := perform_exists path tree
  opened := by
    intro tree path
    simp only [Checksum.wholeFile, perform_open]
    cases tree.openReader path with
    | error error => exact .inl ⟨error, rfl, rfl⟩
    | ok reader =>
        refine .inr ⟨reader, rfl, ?_⟩
        cases reader with
        | failing => exact .failing rfl fun size _ => ⟨.failing, rfl⟩
        | rest contents =>
            exact .whole (reader_delivers tree) rfl (Nat.le_refl _) fun bytes after ahead => by
              rw [ahead]
  present_of_contents := by
    intro tree path bytes held
    rw [Tree.isPresent]
    unfold Checksum.wholeFile Tree.openReader at held
    cases found : tree.node? path with
    | none => simp [found] at held
    | some node => simp

end Memory

/-! A disk -/

namespace Disk

def Tree.held (tree : Tree) (path : Path) : Except Refusal Bytes :=
  match tree.stat path.text with
  | .error refusal => .error refusal
  | .ok number =>
      match tree.node number with
      | .file contents => .ok contents.data.toList
      | _ => .error .isADirectory

/-- A reader with some bytes left of a file on a disk. -/
def restAhead (tree : Tree) (bytes : Bytes) (state : Reader × Tree) : Prop :=
  state.2 = tree ∧ ∃ contents, tree.node state.1.number = .file contents ∧
    bytes = contents.data.toList.drop state.1.position

theorem perform_read (size : Nat) (reader : Reader) (tree : Tree) :
    perform (files.read size) (reader, tree) =
      match tree.readAt reader.number reader.position size with
      | .ok bytes => (.ok bytes, { reader with position := reader.position + bytes.length }, tree)
      | .error refusal => (.error refusal.error, reader, tree) := by
  have answered : perform (files.read size) (reader, tree) =
      ((directFiles.read size reader tree).1.1, (directFiles.read size reader tree).1.2,
        (directFiles.read size reader tree).2) := rfl
  rw [answered]
  have answer : directFiles.read size reader tree =
      match tree.readAt reader.number reader.position size with
      | .ok bytes =>
          ((.ok bytes, { reader with position := reader.position + bytes.length }), tree)
      | .error refusal => ((.error refusal.error, reader), tree) := rfl
  rw [answer]
  cases tree.readAt reader.number reader.position size <;> rfl

theorem reader_delivers (tree : Tree) : Source.Delivers files.read (restAhead tree) := by
  rintro bytes ⟨reader, disk⟩ size ⟨rfl, contents, isFile, rfl⟩ positive
  simp only at isFile ⊢
  have piece : disk.readAt reader.number reader.position size =
      .ok ((contents.data.toList.drop reader.position).take size) := by
    simp [Tree.readAt, isFile, ByteArray.data_extract, Array.toList_extract]
  refine ⟨_, (contents.data.toList.drop reader.position).drop size, _,
    by rw [perform_read, piece], (List.take_append_drop size _).symm, ?_,
    List.length_take_le size _, ?_⟩
  · refine ⟨rfl, contents, isFile, ?_⟩
    simp only [List.drop_drop, List.length_take, List.length_drop]
    by_cases short : size ≤ contents.data.toList.length - reader.position
    · rw [Nat.min_eq_left short]
    · rw [List.drop_eq_nil_of_le (by omega), List.drop_eq_nil_of_le (by omega)]
  · intro none
    rcases List.take_eq_nil_iff.mp none with zero | empty
    · omega
    · exact empty

theorem unread_of_no_file {tree : Tree} {reader : Reader}
    (noFile : ∀ contents, tree.node reader.number ≠ .file contents) :
    FileSystem.Opened files tree reader (.error Refusal.isADirectory.error) := by
  refine .failing rfl fun size _ => ⟨reader, ?_⟩
  have refused : tree.readAt reader.number reader.position size = .error .isADirectory := by
    unfold Tree.readAt
    cases isNode : tree.node reader.number with
    | file contents => exact absurd isNode (noFile contents)
    | directory parent children => rfl
    | link target => rfl
  rw [perform_read, refused]

def view : FileSystem.View files where
  list tree path := (tree.list path).mapError Refusal.error
  isPresent tree path := (tree.exists? path.text).mapError Refusal.error
  contents tree path := (tree.held path).mapError Refusal.error
  listed _ _ := rfl
  asked _ _ := rfl
  opened := by
    intro tree path
    have opens : perform (files.openReader path) tree =
        (((do let number ← tree.stat path.text; pure ⟨number, 0, tree.lengthOf number⟩ :
          Except Refusal Reader)).mapError Refusal.error, tree) := rfl
    rw [opens, Tree.held]
    cases tree.stat path.text with
    | error refusal => exact .inl ⟨refusal.error, rfl, rfl⟩
    | ok number =>
        refine .inr ⟨⟨number, 0, tree.lengthOf number⟩, rfl, ?_⟩
        simp only
        cases isNode : tree.node number with
        | file contents =>
            have ready : restAhead tree contents.data.toList
                (⟨number, 0, tree.lengthOf number⟩, tree) := ⟨rfl, contents, isNode, rfl⟩
            have patient : contents.data.toList.length ≤ tree.lengthOf number := by
              rw [Tree.lengthOf, isNode]
              exact Nat.le_of_eq rfl
            exact .whole (reader_delivers tree) ready patient fun _ _ rest => rest.1
        | directory parent children => exact unread_of_no_file (by simp [isNode])
        | link target => exact unread_of_no_file (by simp [isNode])
  present_of_contents := by
    intro tree path bytes held
    unfold Tree.held at held
    rw [Tree.exists?]
    cases found : tree.stat path.text with
    | error refusal => simp [found] at held
    | ok number => rfl

end Disk

end ChunkStore
