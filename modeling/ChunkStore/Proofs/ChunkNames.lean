import ChunkStore.Checksum.Manifest
import ChunkStore.Job.Local
import ChunkStore.Proofs.Paths

/-!
The names that a build gives to its files. Every name is a single part of a path, numbers are
written so that they can be read back, and no file of one kind has the name of another: spills,
data files, index files and manifests never meet. So each file has a place of its own, chunk files
in the directory of their node, and a listing tells from the name alone what a chunk file holds.
-/

namespace ChunkStore

set_option autoImplicit false

open ChunkStore.Path (Plain)

/-! Numbers in names -/

theorem digits_ne_nil (number : Nat) : Nat.toDigits 10 number ≠ [] := by
  have positive := Nat.length_toDigits_pos (b := 10) (n := number)
  intro empty
  rw [empty] at positive
  exact absurd positive (by simp)

theorem digit_of_mem {number : Nat} {char : Char} (member : char ∈ Nat.toDigits 10 number) :
    char.isDigit = true :=
  Nat.isDigit_of_mem_toDigits (by decide) (by decide) member

theorem not_mem_digits (number : Nat) (char : Char) (other : char.isDigit = false) :
    char ∉ Nat.toDigits 10 number := by
  intro member
  rw [digit_of_mem member] at other
  exact absurd other (by simp)

theorem digits_injective {left right : Nat}
    (same : Nat.toDigits 10 left = Nat.toDigits 10 right) : left = right := by
  have values := congrArg (fun digits => Nat.ofDigitChars 10 digits 0) same
  simpa only [Nat.ofDigitChars_ten_toDigits] using values

/-! Names -/

theorem to_string_text (text : String) : toString text = text := rfl

def ChunkFile.suffix : ChunkFile → List Char
  | .data => ['.', 'd', 'a', 't', 'a']
  | .index => ['.', 'i', 'n', 'd', 'e', 'x']

def ChunkId.fileName (chunk : ChunkId) : ChunkFile → String
  | .data => chunk.dataName
  | .index => chunk.indexName

theorem file_name_chars (chunk : ChunkId) (file : ChunkFile) :
    (chunk.fileName file).toList = Nat.toDigits 10 chunk.index.toNat ++ file.suffix := by
  cases file <;>
    simp [ChunkId.fileName, ChunkId.dataName, ChunkId.indexName, ChunkFile.suffix, to_string_text]

def nodeName (node : UInt32) : String := s!"node-{node.toNat}"

theorem node_name_chars (node : UInt32) :
    (nodeName node).toList = ['n', 'o', 'd', 'e', '-'] ++ Nat.toDigits 10 node.toNat := by
  simp [nodeName, to_string_text]

def spillName (partition : UInt32) : String := s!"part-{Local.fiveDigits partition.toNat}"

theorem spill_path_eq (directory : Path) (partition : UInt32) :
    Local.spillPath directory partition = directory.join (spillName partition) := rfl

theorem spill_name_chars (partition : UInt32) :
    ∃ zeros, (spillName partition).toList =
      ['p', 'a', 'r', 't', '-'] ++
        (List.replicate zeros '0' ++ Nat.toDigits 10 partition.toNat) := by
  refine ⟨5 - (toString partition.toNat).length, ?_⟩
  simp [spillName, Local.fiveDigits, to_string_text]

theorem plain_of_digits {name : String} {number : Nat} {suffix : List Char}
    (written : name.toList = Nat.toDigits 10 number ++ suffix) (no_slash : '/' ∉ suffix) :
    Plain name := by
  obtain ⟨digit, digits, shape⟩ := List.exists_cons_of_ne_nil (digits_ne_nil number)
  have isDigit := @digit_of_mem number digit (by simp [shape])
  have whole : name.toList = digit :: (digits ++ suffix) := by rw [written, shape]; rfl
  apply Plain.of_head whole
  · intro dot
    rw [dot] at isDigit
    exact absurd isDigit (by decide)
  · rw [written, List.mem_append, not_or]
    exact ⟨not_mem_digits number '/' (by decide), no_slash⟩

theorem plain_file_name (chunk : ChunkId) (file : ChunkFile) : Plain (chunk.fileName file) :=
  plain_of_digits (file_name_chars chunk file) (by cases file <;> decide)

theorem plain_node_name (node : UInt32) : Plain (nodeName node) := by
  apply Plain.of_head (node_name_chars node) (by decide)
  rw [node_name_chars, List.mem_append, not_or]
  exact ⟨by decide, not_mem_digits _ '/' (by decide)⟩

theorem plain_spill_name (partition : UInt32) : Plain (spillName partition) := by
  obtain ⟨zeros, written⟩ := spill_name_chars partition
  apply Plain.of_head written (by decide)
  rw [written, List.mem_append, List.mem_append, not_or, not_or]
  refine ⟨by decide, ?_, not_mem_digits _ '/' (by decide)⟩
  intro member
  exact absurd (List.eq_of_mem_replicate member) (by decide)

theorem plain_spill_directory : Plain Local.spillDirectoryName :=
  @Plain.of_head _ 'm' _ rfl (by decide) (by decide)

theorem plain_manifest : Plain Checksum.manifestName :=
  @Plain.of_head _ 'c' _ rfl (by decide) (by decide)

/-! Names of one kind tell numbers apart -/

theorem node_name_injective {left right : UInt32} (same : nodeName left = nodeName right) :
    left = right := by
  have chars := congrArg String.toList same
  rw [node_name_chars, node_name_chars] at chars
  exact UInt32.toNat_inj.mp (digits_injective (List.append_cancel_left chars))

theorem spill_name_injective {left right : UInt32} (same : spillName left = spillName right) :
    left = right := by
  obtain ⟨leftZeros, leftChars⟩ := spill_name_chars left
  obtain ⟨rightZeros, rightChars⟩ := spill_name_chars right
  have chars := congrArg String.toList same
  rw [leftChars, rightChars] at chars
  have values := congrArg (fun digits => Nat.ofDigitChars 10 digits 0)
    (List.append_cancel_left chars)
  simp only [Nat.ofDigitChars_append, Nat.ofDigitChars_replicate_zero, Nat.mul_zero,
    Nat.ofDigitChars_ten_toDigits] at values
  exact UInt32.toNat_inj.mp values

theorem file_name_injective {left right : ChunkId} {leftFile rightFile : ChunkFile}
    (same : left.fileName leftFile = right.fileName rightFile) :
    left.index = right.index ∧ leftFile = rightFile := by
  have chars := congrArg String.toList same
  rw [file_name_chars, file_name_chars] at chars
  have files : leftFile = rightFile := by
    have last := congrArg List.getLast? chars
    cases leftFile <;> cases rightFile <;> simp [ChunkFile.suffix] at last ⊢
  rw [files] at chars
  exact ⟨UInt32.toNat_inj.mp (digits_injective (List.append_cancel_right chars)), files⟩

/-! Names of different kinds differ -/

theorem file_name_head (chunk : ChunkId) (file : ChunkFile) :
    ∃ digit, (chunk.fileName file).toList.head? = some digit ∧ digit.isDigit = true := by
  obtain ⟨digit, digits, shape⟩ := List.exists_cons_of_ne_nil (digits_ne_nil chunk.index.toNat)
  refine ⟨digit, by simp [file_name_chars, shape], ?_⟩
  exact @digit_of_mem chunk.index.toNat _ (by simp [shape])

theorem file_name_ne {chunk : ChunkId} {file : ChunkFile} {name : String} {char : Char}
    (head : name.toList.head? = some char) (other : char.isDigit = false) :
    chunk.fileName file ≠ name := by
  intro same
  obtain ⟨digit, digitHead, isDigit⟩ := file_name_head chunk file
  rw [same, head, Option.some.injEq] at digitHead
  rw [← digitHead, other] at isDigit
  exact absurd isDigit (by simp)

theorem file_name_ne_manifest (chunk : ChunkId) (file : ChunkFile) :
    chunk.fileName file ≠ Checksum.manifestName :=
  @file_name_ne _ _ _ 'c' rfl (by decide)

theorem spill_name_head (partition : UInt32) :
    (spillName partition).toList.head? = some 'p' := by
  obtain ⟨zeros, written⟩ := spill_name_chars partition
  rw [written]
  rfl

theorem file_name_ne_spill_name (chunk : ChunkId) (file : ChunkFile) (partition : UInt32) :
    chunk.fileName file ≠ spillName partition :=
  file_name_ne (spill_name_head partition) (by decide)

theorem spill_name_ne_manifest (partition : UInt32) :
    spillName partition ≠ Checksum.manifestName := by
  intro same
  have head := spill_name_head partition
  rw [same] at head
  exact absurd head (by decide)

/-! Paths -/

def ChunkId.filePath (chunk : ChunkId) (output : Path) (file : ChunkFile) : Path :=
  (nodeDirectory output chunk.node).join (chunk.fileName file)

theorem data_path_eq (chunk : ChunkId) (output : Path) :
    chunk.dataPath output = chunk.filePath output .data := rfl

theorem index_path_eq (chunk : ChunkId) (output : Path) :
    chunk.indexPath output = chunk.filePath output .index := rfl

theorem parts_node_directory (output : Path) (node : UInt32) :
    (nodeDirectory output node).parts = output.parts ++ [.named (nodeName node)] :=
  Path.parts_join output _ (plain_node_name node)

theorem parts_file_path (chunk : ChunkId) (output : Path) (file : ChunkFile) :
    (chunk.filePath output file).parts =
      (nodeDirectory output chunk.node).parts ++ [.named (chunk.fileName file)] :=
  Path.parts_join _ _ (plain_file_name chunk file)

theorem name_file_path (chunk : ChunkId) (output : Path) (file : ChunkFile) :
    (chunk.filePath output file).name = chunk.fileName file :=
  Path.name_join _ _ (plain_file_name chunk file)

theorem name_spill_path (directory : Path) (partition : UInt32) :
    (Local.spillPath directory partition).name = spillName partition :=
  Path.name_join _ _ (plain_spill_name partition)

theorem name_manifest_path (directory : Path) :
    (Checksum.manifestPath directory).name = Checksum.manifestName :=
  Path.name_join _ _ plain_manifest

theorem node_directory_child (output : Path) (node : UInt32) :
    (nodeDirectory output node).isChildOf output = true :=
  (Path.join_is_child_iff output output _ (plain_node_name node)).mpr rfl

theorem parent_file_path (chunk : ChunkId) (output : Path) (file : ChunkFile) :
    (chunk.filePath output file).parent? = some (nodeDirectory output chunk.node) :=
  Path.parent_join_join output _ _ (plain_node_name chunk.node) (plain_file_name chunk file)

theorem node_directory_injective {output : Path} {left right : UInt32}
    (same : (nodeDirectory output left).parts = (nodeDirectory output right).parts) :
    left = right := by
  rw [parts_node_directory, parts_node_directory] at same
  have last := List.append_cancel_left same
  simp only [List.cons.injEq, PathPart.named.injEq, and_true] at last
  exact node_name_injective last

theorem node_directories_apart {output : Path} {left right : UInt32} (different : left ≠ right) :
    (nodeDirectory output left).same (nodeDirectory output right) = false := by
  rw [Bool.eq_false_iff, Ne, Path.same_iff_parts]
  intro same
  exact different (node_directory_injective same)

theorem file_path_injective {output : Path} {left right : ChunkId} {leftFile rightFile : ChunkFile}
    (same : (left.filePath output leftFile).same (right.filePath output rightFile) = true) :
    left = right ∧ leftFile = rightFile := by
  have parts := (Path.same_iff_parts _ _).mp same
  rw [parts_file_path, parts_file_path] at parts
  obtain ⟨directories, names⟩ := List.append_inj' parts rfl
  simp only [List.cons.injEq, PathPart.named.injEq, and_true] at names
  have node := node_directory_injective directories
  obtain ⟨index, files⟩ := file_name_injective names
  cases left
  cases right
  simp_all

theorem spill_path_injective {directory : Path} {left right : UInt32}
    (same : (Local.spillPath directory left).same (Local.spillPath directory right) = true) :
    left = right := by
  have names := Path.name_congr same
  rw [name_spill_path, name_spill_path] at names
  exact spill_name_injective names

theorem file_path_ne_spill_path (chunk : ChunkId) (output : Path) (file : ChunkFile)
    (directory : Path) (partition : UInt32) :
    (chunk.filePath output file).same (Local.spillPath directory partition) = false := by
  apply Path.not_same_of_name
  rw [name_file_path, name_spill_path]
  exact file_name_ne_spill_name chunk file partition

/-! Entries of chunk files -/

def ChunkFile.kind : ChunkFile → EntryKind
  | .data => .data
  | .index => .index

/-- Only the suffix of an index file ends as the name of an index file does. -/
theorem kind_of_chunk_name {status : Status} {chunk : ChunkId} {file : ChunkFile}
    (isFile : status.isDirectory = false) (named : status.name = chunk.fileName file) :
    EntryKind.ofStatus status = file.kind := by
  rw [EntryKind.ofStatus, isFile, named, file_name_chars]
  cases file with
  | index =>
      have ending : EntryKind.indexEnding.isSuffixOf
          (Nat.toDigits 10 chunk.index.toNat ++ ChunkFile.index.suffix) = true := by
        rw [List.isSuffixOf_iff_suffix]
        exact List.suffix_append _ _
      rw [ending]
      rfl
  | data =>
      have ending : EntryKind.indexEnding.isSuffixOf
          (Nat.toDigits 10 chunk.index.toNat ++ ChunkFile.data.suffix) = false := by
        rw [Bool.eq_false_iff, Ne, List.isSuffixOf_iff_suffix]
        rintro ⟨front, same⟩
        have last := congrArg List.getLast? same
        simp [EntryKind.indexEnding, ChunkFile.suffix] at last
      rw [ending]
      rfl

theorem shown_of_chunk_name {status : Status} {chunk : ChunkId} {file : ChunkFile}
    (named : status.name = chunk.fileName file) : status.isHidden = false := by
  obtain ⟨digit, head, isDigit⟩ := file_name_head chunk file
  rw [Status.isHidden, named, head, beq_eq_false_iff_ne, Ne, Option.some.injEq]
  rintro rfl
  exact absurd isDigit (by decide)

theorem name_at_chunk_file {status : Status} {chunk : ChunkId} {output : Path} {file : ChunkFile}
    (here : status.path.same (chunk.filePath output file) = true) :
    status.name = chunk.fileName file := by
  rw [Status.name, Path.name_congr here, name_file_path]

/-! Files of a build -/

inductive BuildFile
  | spill (partition : UInt32)
  | ofChunk (chunk : ChunkId) (file : ChunkFile)
deriving DecidableEq, Repr

namespace BuildFile

/-- Where a file is kept, with chunks under the output and spills in a directory for them. -/
def path (output directory : Path) : BuildFile → Path
  | .spill partition => Local.spillPath directory partition
  | .ofChunk chunk .data => chunk.dataPath output
  | .ofChunk chunk .index => chunk.indexPath output

theorem path_of_chunk (output directory : Path) (chunk : ChunkId) (file : ChunkFile) :
    (ofChunk chunk file).path output directory = chunk.filePath output file := by
  cases file with
  | data => exact data_path_eq chunk output
  | index => exact index_path_eq chunk output

theorem path_injective {output directory : Path} {left right : BuildFile}
    (same : (left.path output directory).same (right.path output directory) = true) :
    left = right := by
  cases left with
  | spill partition =>
      cases right with
      | spill other => rw [spill_path_injective same]
      | ofChunk chunk file =>
          rw [path_of_chunk, Path.same_comm, path, file_path_ne_spill_path] at same
          exact absurd same (by simp)
  | ofChunk chunk file =>
      rw [path_of_chunk] at same
      cases right with
      | spill partition =>
          rw [path, file_path_ne_spill_path] at same
          exact absurd same (by simp)
      | ofChunk other otherFile =>
          rw [path_of_chunk] at same
          obtain ⟨chunks, files⟩ := file_path_injective same
          rw [chunks, files]

end BuildFile

/-- What is relied on where a path leads to a file of a chunk: it lies in the directory of the
node, and whatever a listing calls a file there is one of this kind that is digested. -/
structure ChunkId.KeptAt (chunk : ChunkId) (output path : Path) (kind : EntryKind) : Prop where
  parent : path.parent? = some (nodeDirectory output chunk.node)
  kind : ∀ status : Status, status.path.same path = true → status.isDirectory = false →
    EntryKind.ofStatus status = kind
  shown : ∀ status : Status, status.path.same path = true → status.isHidden = false
  unlike_manifest : ∀ status : Status, status.path.same path = true →
    status.name ≠ Checksum.manifestName

theorem kept_at_file_path (chunk : ChunkId) (output : Path) (file : ChunkFile) :
    chunk.KeptAt output (chunk.filePath output file) file.kind where
  parent := parent_file_path chunk output file
  kind _ here isFile := kind_of_chunk_name isFile (name_at_chunk_file here)
  shown _ here := shown_of_chunk_name (name_at_chunk_file here)
  unlike_manifest status here := by
    rw [name_at_chunk_file here]
    exact file_name_ne_manifest chunk file

/-- Under any output, and with the spills in any directory, two files are at one place only if they
are the same file. Every chunk file lies in the directory of its node, directly under the output,
and is told by its name for what it is. -/
theorem files_apart_and_told_by_name (output : Path) :
    (∀ (directory : Path) (left right : BuildFile),
      (left.path output directory).same (right.path output directory) = true ↔ left = right) ∧
    ∀ chunk : ChunkId,
      (∃ above, (nodeDirectory output chunk.node).parent? = some above ∧
        above.same output = true) ∧
      chunk.KeptAt output (chunk.dataPath output) .data ∧
      chunk.KeptAt output (chunk.indexPath output) .index := by
  constructor
  · intro directory left right
    constructor
    · exact BuildFile.path_injective
    · rintro rfl
      exact Path.same_refl _
  · intro chunk
    refine ⟨Path.parent_of_child (node_directory_child output chunk.node), ?_, ?_⟩
    · exact kept_at_file_path chunk output .data
    · exact kept_at_file_path chunk output .index

/-- A number of more than five digits is not cut, and an entry may spell the place of a file in its
own way. -/
theorem long_spill_and_respelled_entry :
    (Local.spillPath (.ofText "/tmp") 100000).same (Local.spillPath (.ofText "/tmp") 10000) =
        false ∧
      (Path.ofText "/out//node-3/./7.index").same
        (ChunkId.indexPath ⟨3, 7⟩ (.ofText "/out")) = true ∧
      EntryKind.ofStatus (.file (.ofText "/out//node-3/./7.index") 20) = .index := by
  have whole := files_apart_and_told_by_name (.ofText "/out")
  have place : (Path.ofText "/out//node-3/./7.index").same
      (ChunkId.indexPath ⟨3, 7⟩ (.ofText "/out")) = true := by decide +kernel
  refine ⟨?_, place, ?_⟩
  · rw [Bool.eq_false_iff]
    intro same
    exact absurd ((whole.1 (.ofText "/tmp") (.spill 100000) (.spill 10000)).mp same) (by decide)
  · exact (whole.2 ⟨3, 7⟩).2.2.kind (.file (.ofText "/out//node-3/./7.index") 20) place rfl

end ChunkStore
