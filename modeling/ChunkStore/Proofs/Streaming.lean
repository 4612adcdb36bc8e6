import ChunkStore.FileSystem.Faulty
import ChunkStore.Proofs.MemoryHistory
import ChunkStore.Proofs.Tampering

/-!
Digests of streams. A reader may give a file in pieces of any length and may be interrupted any
number of times in between: the digest of the file is that of its whole contents. On files in
memory the digest of a directory is therefore told by the contents that are digested and by their
order, whatever the size of the buffer that they are read through.
-/

namespace ChunkStore

set_option autoImplicit false

open Stateful

/-! Schedules -/

/-- What one read answers before the end: an interruption, or some bytes. -/
inductive Answer
  | interrupted (text : String)
  | piece (bytes : Bytes)
deriving DecidableEq, Repr

namespace Answer

def bytes : Answer → Bytes
  | interrupted _ => []
  | piece bytes => bytes

def delivered (answers : List Answer) : Bytes := answers.flatMap bytes

theorem delivered_cons (answer : Answer) (answers : List Answer) :
    delivered (answer :: answers) = answer.bytes ++ delivered answers := List.flatMap_cons

end Answer

namespace Source

variable {m : Type → Type} [Monad m] {σ : Type} [Stateful m σ]

/-- Reads of one size give some answers in turn and then find the end. A piece has at least one
byte, and no more than were asked for. -/
inductive Answers (source : Source m) (size : Nat) : List Answer → σ → Prop
  | ended {state after : σ} (read : perform (source size) state = (.ok [], after)) :
      Answers source size [] state
  | interrupted {text : String} {answers : List Answer} {state after : σ}
      (read : perform (source size) state = (.error ⟨.interrupted, text⟩, after))
      (later : Answers source size answers after) :
      Answers source size (.interrupted text :: answers) state
  | piece {bytes : Bytes} {answers : List Answer} {state after : σ} (present : bytes ≠ [])
      (fits : bytes.length ≤ size) (read : perform (source size) state = (.ok bytes, after))
      (later : Answers source size answers after) :
      Answers source size (.piece bytes :: answers) state

/-- Collecting reads on through interruptions and short pieces, as long as its patience lasts for
all of them, and ends with everything that was delivered. -/
theorem collect_answers {source : Source m} {size : Nat} {answers : List Answer} {state : σ}
    (gives : Answers source size answers state) (patience : Nat)
    (patient : answers.length ≤ patience) (got : Bytes) :
    ∃ after, perform (collect source size patience got) state =
      (.ok (got.reverse ++ Answer.delivered answers), after) := by
  induction gives generalizing patience got with
  | @ended state after read =>
      cases patience with
      | zero => exact ⟨state, by simp [collect, Answer.delivered]⟩
      | succ patience =>
          apply Exists.intro after
          rw [collect, perform_bind, perform_outcome, read]
          simp [Answer.delivered]
  | interrupted read later induction =>
      cases patience with
      | zero => exact absurd patient (by simp)
      | succ patience =>
          rw [collect, perform_bind, perform_outcome, read]
          exact induction patience (Nat.le_of_succ_le_succ patient) got
  | @piece bytes answers state after present fits read later induction =>
      cases patience with
      | zero => exact absurd patient (by simp)
      | succ patience =>
          obtain ⟨first, rest, shape⟩ := List.exists_cons_of_ne_nil present
          obtain ⟨final, collected⟩ :=
            induction patience (Nat.le_of_succ_le_succ patient) (bytes.reverseAux got)
          apply Exists.intro final
          rw [collect, perform_bind, perform_outcome, read, shape]
          simp only
          rw [← shape, collected, Answer.delivered_cons, reverse_reverse_aux, List.append_assoc]
          rfl

end Source

namespace Checksum

section streams

variable {m : Type → Type} [Monad m] {Reader Writer σ : Type} [Stateful m σ]

theorem of_file_answers {files : FileSystem m Reader Writer} {path : Path} {size : Nat}
    {state opened : σ} {reader : Reader} {answers : List Answer}
    (opens : perform (files.openReader path) state = (.ok reader, opened))
    (gives : Source.Answers files.read size answers (reader, opened))
    (patient : answers.length ≤ files.patience reader) :
    ∃ after, perform (ofFile files path size) state =
      (.ok (Md5.digest (Answer.delivered answers), (Answer.delivered answers).length), after) := by
  obtain ⟨after, collected⟩ := Source.collect_answers gives (files.patience reader + 1)
    (Nat.le_succ_of_le patient) []
  apply Exists.intro after.2
  rw [perform_of_file_contents, contentsOf, perform_reading, opens]
  simp only [perform_adapt, collected]
  rfl

end streams

/-! Files in memory -/

open Memory

theorem readable_of_listed {tree : Tree} (distinct : tree.Distinct) (healthy : tree.failing = [])
    {directory : Path} {entries : List Status} (listed : tree.list directory = .ok entries)
    {status : Status} (member : status ∈ entries) (isFile : status.isDirectory = false) :
    ∃ contents, tree.Readable status.path contents := by
  have readable (contents : Bytes) (found : tree.node? status.path = some (.file contents)) :
      tree.Readable status.path contents := by
    constructor
    · exact Tree.contents_of_node.mpr found
    · rw [Tree.isFailing, healthy]
      rfl
  rcases Tree.list_cases listed with ⟨rfl, _⟩ | ⟨contents, found, rfl⟩
  · obtain ⟨entry, kept, rfl⟩ := List.mem_map.mp member
    have there := (List.mem_filter.mp kept).1
    have found := Tree.node_of_mem distinct there (Path.same_refl entry.path)
    cases node : entry.node with
    | directory =>
        rw [(Tree.directory_status entry).mpr node] at isFile
        exact absurd isFile (by simp)
    | file contents =>
        apply Exists.intro contents
        apply readable
        rw [Tree.path_status, found, node]
  · apply Exists.intro contents
    apply readable
    rw [List.mem_singleton.mp member]
    exact found

theorem contents_of_each_readable {tree : Tree} {statuses : List Status}
    (readable : ∀ status ∈ statuses, ∃ contents, tree.Readable status.path contents) :
    ∃ inputs : List (Path × Bytes), inputs.map (·.1) = statuses.map (·.path) ∧
      (∀ input ∈ inputs, tree.contents? input.1 = some input.2) ∧
      ∀ size, 0 < size →
        perform (contentsOfEach files size statuses) tree = (.ok inputs, tree) := by
  induction statuses with
  | nil => exact ⟨[], rfl, by simp, fun _ _ => rfl⟩
  | cons status rest induction =>
      rw [List.forall_mem_cons] at readable
      obtain ⟨contents, isReadable⟩ := readable.1
      obtain ⟨inputs, paths, held, others⟩ := induction readable.2
      refine ⟨(status.path, contents) :: inputs, by rw [List.map_cons, List.map_cons, paths],
        ?_, ?_⟩
      · exact List.forall_mem_cons.mpr ⟨isReadable.1, held⟩
      · intro size room
        have first : perform (contentsOf files status.path size) tree = (.ok contents, tree) := by
          rw [perform_contents_of status.path room, wholeFile, Tree.open_readable isReadable]
          rfl
        rw [contentsOfEach, perform_bind_ok first, perform_bind_ok (others size room), perform_pure]

/-- Where no read is made to fail, the digest of what can be listed is made of the contents of the
files that count, in checksum order. -/
theorem of_directory_reference {tree : Tree} (distinct : tree.Distinct)
    (healthy : tree.failing = []) {directory : Path} {entries : List Status}
    (listed : tree.list directory = .ok entries) (order : ChecksumOrder) :
    ∃ inputs : List (Path × Bytes),
      inputs.map (·.1) = (order.inputs manifestName entries).map (·.path) ∧
      (∀ input ∈ inputs, tree.contents? input.1 = some input.2) ∧
      ∀ bufferSize, perform (ofDirectory files { bufferSize, order } directory) tree =
        (.ok (.ofContents directory inputs), tree) := by
  have readable : ∀ status ∈ order.inputs manifestName entries,
      ∃ contents, tree.Readable status.path contents := by
    intro status member
    have isFile : status.isDirectory = false := by
      have kept := (List.mem_filter.mp member).2
      simp only [Bool.and_eq_true, Bool.not_eq_true'] at kept
      exact kept.1.1
    exact readable_of_listed distinct healthy listed (ChecksumOrder.mem_inputs member).1 isFile
  obtain ⟨inputs, paths, held, each⟩ := contents_of_each_readable readable
  refine ⟨inputs, paths, held, ?_⟩
  intro bufferSize
  have digested : perform (digestedFiles files { bufferSize, order } directory) tree =
      (.ok inputs, tree) := by
    have listing : perform ((files.list directory).adapt (ChecksumError.list directory)) tree =
        (.ok entries, tree) := by
      rw [perform_adapt, perform_list, listed]
      rfl
    rw [digestedFiles, perform_bind_ok listing]
    exact each _ (by omega)
  rw [perform_of_directory_contents, digested]
  rfl

/-- The digest of a file is the MD5 of everything that its reader delivers, with its length,
however the reader cuts it into pieces and however often it is interrupted. The digest of a
directory in memory is the MD5 of the MD5s of its files in checksum order, with their paths and the
sum of their lengths, whatever the size of the buffer. -/
theorem streamed_digest_is_reference {m : Type → Type} [Monad m] {Reader Writer σ : Type}
    [Stateful m σ] (source : FileSystem m Reader Writer) :
    (∀ (path : Path) (size : Nat) (state opened : σ) (reader : Reader) (answers : List Answer),
      perform (source.openReader path) state = (.ok reader, opened) →
      Source.Answers source.read size answers (reader, opened) →
      answers.length ≤ source.patience reader →
      ∃ after, perform (ofFile source path size) state =
        (.ok (Md5.digest (Answer.delivered answers), (Answer.delivered answers).length),
          after)) ∧
    ∀ (tree : Tree) (directory : Path) (entries : List Status) (order : ChecksumOrder),
      tree.Reachable → tree.failing = [] → tree.list directory = .ok entries →
      ∃ inputs : List (Path × Bytes),
        inputs.map (·.1) = (order.inputs manifestName entries).map (·.path) ∧
        (∀ input ∈ inputs, tree.contents? input.1 = some input.2) ∧
        ∀ bufferSize, perform (ofDirectory files { bufferSize, order } directory) tree =
          (.ok { directory
                 digest := Md5.digest (inputs.flatMap fun input => Md5.digest input.2)
                 files := inputs.map (·.1)
                 bytes := (inputs.map (·.2.length)).sum }, tree) := by
  constructor
  · intro path size state opened reader answers opens gives patient
    exact of_file_answers opens gives patient
  · intro tree directory entries order reachable healthy listed
    obtain ⟨inputs, paths, held, digested⟩ :=
      of_directory_reference reachable.distinct healthy listed order
    refine ⟨inputs, paths, held, ?_⟩
    intro bufferSize
    rw [digested bufferSize, NodeDigest.ofContents, Md5.joined, List.flatMap_map]

def fiveBytes : Tree := Tree.empty.addFile (.ofText "/node/0.data") [1, 2, 3, 4, 5]

/-- Its reader gives two bytes at a time, and every other read is interrupted. -/
def brokenReads : List Faulty.Fault :=
  [⟨.ofText "/node/0.data", .short, .other "", 2⟩,
    ⟨.ofText "/node/0.data", .interrupt, .other "", 0⟩]

def brokenReader : Faulty.Reader Memory.Reader where
  inner := .rest [1, 2, 3, 4, 5]
  failing := none
  short := some ⟨.ofText "/node/0.data", .short, .other "", 2⟩
  interrupted := true
  calls := 0
  delivered := 0

def brokenAnswers : List Answer :=
  [.interrupted "interrupted", .piece [1, 2], .interrupted "interrupted", .piece [3, 4],
    .interrupted "interrupted", .piece [5], .interrupted "interrupted"]

theorem broken_reader_opened :
    perform ((Faulty.files brokenReads files).openReader (.ofText "/node/0.data")) fiveBytes =
      (.ok brokenReader, fiveBytes) := by
  have free : Faulty.find? brokenReads .openReader (.ofText "/node/0.data") = none := by
    decide +kernel
  have opened : fiveBytes.openReader (.ofText "/node/0.data") = .ok (.rest [1, 2, 3, 4, 5]) := by
    decide +kernel
  have failing : Faulty.find? brokenReads .read (.ofText "/node/0.data") = none := by
    decide +kernel
  have short : Faulty.find? brokenReads .short (.ofText "/node/0.data") = brokenReader.short := by
    decide +kernel
  have interrupted :
      (Faulty.find? brokenReads .interrupt (.ofText "/node/0.data")).isSome = true := by
    decide +kernel
  simp only [Faulty.files, Faulty.guarded, free, perform_bind, perform_open, opened, failing, short,
    interrupted, perform_pure]
  rfl

theorem broken_reader_answers :
    Source.Answers (Faulty.files brokenReads files).read 4 brokenAnswers
      (brokenReader, fiveBytes) := by
  apply Source.Answers.interrupted rfl
  apply Source.Answers.piece (by decide) (by decide) rfl
  apply Source.Answers.interrupted rfl
  apply Source.Answers.piece (by decide) (by decide) rfl
  apply Source.Answers.interrupted rfl
  apply Source.Answers.piece (by decide) (by decide) rfl
  apply Source.Answers.interrupted rfl
  exact Source.Answers.ended rfl

theorem broken_reads_digested :
    (∃ after, perform (ofFile (Faulty.files brokenReads files) (.ofText "/node/0.data") 4)
      fiveBytes = (.ok (Md5.digest [1, 2, 3, 4, 5], 5), after)) ∧
    ∃ inputs : List (Path × Bytes),
      (∀ input ∈ inputs, fiveBytes.contents? input.1 = some input.2) ∧
      ∀ bufferSize, perform (ofDirectory files { bufferSize, order := .byName } (.ofText "/node"))
        fiveBytes = (.ok { directory := .ofText "/node"
                           digest := Md5.digest (inputs.flatMap fun input => Md5.digest input.2)
                           files := inputs.map (·.1)
                           bytes := (inputs.map (·.2.length)).sum }, fiveBytes) := by
  obtain ⟨ofReader, ofTree⟩ :=
    streamed_digest_is_reference (m := StateM Tree) (Faulty.files brokenReads files)
  constructor
  · have whole : Answer.delivered brokenAnswers = [1, 2, 3, 4, 5] := rfl
    have digested := ofReader (.ofText "/node/0.data") 4 fiveBytes fiveBytes brokenReader
      brokenAnswers broken_reader_opened broken_reader_answers (by decide)
    rwa [whole] at digested
  · have listed : (fiveBytes.list (.ofText "/node")).isOk = true := by decide +kernel
    obtain ⟨entries, isListed⟩ := exists_ok listed
    obtain ⟨inputs, _, held, digested⟩ := ofTree fiveBytes (.ofText "/node") entries .byName
      ⟨[], .next .start (.addFile _ _ _)⟩ rfl isListed
    exact ⟨inputs, held, digested⟩

end Checksum

end ChunkStore
