import ChunkStore.Proofs.MemoryTree
import ChunkStore.Proofs.Sources

/-!
The calls of the file system in memory, each as what it answers and which tree it leaves. A file
that can be read is a source of its contents, and reading never changes the tree.
-/

namespace ChunkStore.Memory

set_option autoImplicit false

open Stateful

/-! Calls -/

theorem perform_stepping (step : Tree → Except IoError Tree) (tree : Tree) :
    perform (stepping step) tree =
      match step tree with
      | .ok after => (.ok (), after)
      | .error error => (.error error, tree) := rfl

theorem perform_exists (path : Path) (tree : Tree) :
    perform (files.exists? path) tree = (.ok (tree.isPresent path), tree) := rfl

theorem perform_list (path : Path) (tree : Tree) :
    perform (files.list path) tree = (tree.list path, tree) := rfl

theorem perform_open (path : Path) (tree : Tree) :
    perform (files.openReader path) tree = (tree.openReader path, tree) := rfl

theorem perform_create (path : Path) (tree : Tree) :
    perform (files.create path) tree =
      match tree.create path with
      | .ok after => (.ok (Writer.opened path), after)
      | .error error => (.error error, tree) := by
  simp only [files, perform_bind, perform_stepping]
  cases tree.create path <;> rfl

theorem perform_create_directories (path : Path) (tree : Tree) :
    perform (files.createDirectories path) tree =
      match tree.createDirectories path with
      | .ok after => (.ok (), after)
      | .error error => (.error error, tree) := rfl

theorem perform_delete (path : Path) (tree : Tree) :
    perform (files.deleteTree path) tree =
      (.ok ((tree.delete path).size != tree.size), tree.delete path) := rfl

theorem perform_read (size : Nat) (reader : Reader) (tree : Tree) :
    perform (files.read size) (reader, tree) =
      ((reader.read size).1, (reader.read size).2, tree) := rfl

theorem perform_write (piece : Bytes) (writer : Writer) (tree : Tree) :
    perform (files.write piece) (writer, tree) = (.ok (), writer.write piece, tree) := rfl

theorem perform_flush (writer : Writer) (tree : Tree) :
    perform files.flush (writer, tree) = (.ok (), writer, tree.publish writer) := rfl

theorem exec_close (writer : Writer) (tree : Tree) :
    exec (files.close writer) tree = ((), tree.publish writer) := rfl

theorem exec_extent (tree : Tree) : exec files.extent tree = (tree.size + 1, tree) := rfl

/-! Reading -/

def restAhead (tree : Tree) (bytes : Bytes) (state : Reader × Tree) : Prop :=
  state = (.rest bytes, tree)

theorem reader_delivers (tree : Tree) : Source.Delivers files.read (restAhead tree) := by
  intro bytes state size holds positive
  unfold restAhead at holds
  subst holds
  refine ⟨bytes.take size, bytes.drop size, (.rest (bytes.drop size), tree), rfl,
    (List.take_append_drop size bytes).symm, rfl, ?_, ?_⟩
  · rw [List.length_take]
    exact Nat.min_le_left _ _
  · intro none
    rcases List.take_eq_nil_iff.mp none with zero | empty
    · omega
    · exact empty

theorem keeps_read (inv : Tree → Prop) (size : Nat) :
    Keeps (fun state : Reader × Tree => inv state.2) (files.read size) := by
  rintro ⟨reader, tree⟩ holds
  exact holds

theorem keeps_open (inv : Tree → Prop) (path : Path) : Keeps inv (files.openReader path) :=
  fun _ holds => holds

theorem keeps_list (inv : Tree → Prop) (path : Path) : Keeps inv (files.list path) :=
  fun _ holds => holds

theorem tree_of_keeps {ε α : Type} {body : ExceptT ε (StateM Tree) α}
    (keeps : ∀ inv : Tree → Prop, Keeps inv body) (tree : Tree) :
    perform body tree = ((perform body tree).1, tree) := by
  have same := keeps (· = tree) tree rfl
  exact Prod.ext rfl same

/-- A file whose reads are not made to fail, with its contents. -/
def Tree.Readable (tree : Tree) (path : Path) (contents : Bytes) : Prop :=
  tree.contents? path = some contents ∧ tree.isFailing path = false

theorem Tree.open_readable {tree : Tree} {path : Path} {contents : Bytes}
    (readable : tree.Readable path contents) :
    tree.openReader path = .ok (.rest contents) := by
  rw [openReader, contents_of_node.mp readable.1]
  simp [readable.2]

theorem Tree.open_cases (tree : Tree) (path : Path) :
    (∃ error, tree.openReader path = .error error) ∨ tree.openReader path = .ok .failing ∨
      ∃ contents, tree.openReader path = .ok (.rest contents) ∧ tree.Readable path contents := by
  unfold openReader
  cases found : tree.node? path with
  | none => exact Or.inl ⟨_, rfl⟩
  | some node =>
      cases node with
      | directory => exact Or.inl ⟨_, rfl⟩
      | file contents =>
          by_cases fails : tree.isFailing path = true
          · exact Or.inr (Or.inl (by simp [fails]))
          · refine Or.inr (Or.inr ⟨contents, by simp [fails], contents_of_node.mpr found, ?_⟩)
            simpa using fails

theorem perform_reading_tree {ε α : Type} (wrap : IoError → ε) (path : Path)
    (body : Nat → ExceptT ε (StateT Reader (StateM Tree)) α) (tree : Tree) :
    perform (files.reading wrap path body) tree =
      match tree.openReader path with
      | .error error => (.error (wrap error), tree)
      | .ok reader =>
          ((perform (body (reader.patience + 1)) (reader, tree)).1,
            (perform (body (reader.patience + 1)) (reader, tree)).2.2) := by
  rw [perform_reading, perform_open]
  cases tree.openReader path <;> rfl

theorem perform_reading_readable {ε α : Type} {tree : Tree} {path : Path} {contents : Bytes}
    (readable : tree.Readable path contents) (wrap : IoError → ε)
    (body : Nat → ExceptT ε (StateT Reader (StateM Tree)) α) :
    perform (files.reading wrap path body) tree =
      ((perform (body (contents.length + 1)) (.rest contents, tree)).1,
        (perform (body (contents.length + 1)) (.rest contents, tree)).2.2) := by
  rw [perform_reading, perform_open, Tree.open_readable readable]
  rfl

/-- What reading a file gives is decided by its contents, or it is an error when even one read
that fails is one. -/
theorem reading_ok {ε α : Type} {tree : Tree} {path : Path} {wrap : IoError → ε}
    {body : Nat → ExceptT ε (StateT Reader (StateM Tree)) α} {value : α} {after : Tree}
    (fails : (perform (body 1) (.failing, tree)).1 ≠ .ok value)
    (done : perform (files.reading wrap path body) tree = (.ok value, after)) :
    ∃ contents, tree.Readable path contents ∧
      (perform (body (contents.length + 1)) (.rest contents, tree)).1 = .ok value ∧
        (perform (body (contents.length + 1)) (.rest contents, tree)).2.2 = after := by
  rcases tree.open_cases path with ⟨error, refused⟩ | failing | ⟨contents, _, readable⟩
  · rw [perform_reading, perform_open, refused] at done
    exact absurd done (by simp)
  · rw [perform_reading, perform_open, failing] at done
    obtain ⟨result, state⟩ := Prod.mk.inj done
    exact absurd result fails
  · rw [perform_reading_readable readable] at done
    obtain ⟨result, state⟩ := Prod.mk.inj done
    exact ⟨contents, readable, result, state⟩

end ChunkStore.Memory
