import ChunkStore.Job.Local
import ChunkStore.Proofs.MemoryFiles
import ChunkStore.Proofs.Records

/-!
What writing does to a tree. Bytes go to a buffer or to the writer behind it and the tree changes
only when a file is flushed or closed, so a file that was created and written is in the end stored
with everything that was written, whatever the buffer's size and wherever the writing stopped.
-/

namespace ChunkStore

set_option autoImplicit false

open Stateful Memory

/-! Open files -/

theorem HeldBytes.bytes_empty : HeldBytes.empty.bytes = [] := rfl

theorem HeldBytes.bytes_add (held : HeldBytes) (piece : Bytes) :
    (held.add piece).bytes = held.bytes ++ piece := by
  simp [HeldBytes.bytes, HeldBytes.add]

theorem Memory.Writer.written_write (writer : Writer) (piece : Bytes) :
    (writer.write piece).written = writer.written ++ piece := by
  simp [Writer.written, Writer.write]

namespace OpenFile

structure Holds (file : OpenFile Writer) (path : Path) (bytes : Bytes) : Prop where
  path : file.writer.path = path
  written : file.writer.written ++ file.held.bytes = bytes
  counted : file.held.size = file.held.bytes.length

theorem holds_opened (path : Path) :
    Holds { writer := Writer.opened path } path [] := ⟨rfl, rfl, rfl⟩

/-- What is handed on goes behind what the writer has; it is all there when nothing is held. -/
theorem perform_send {file : OpenFile Writer} {path : Path} {bytes : Bytes}
    (holds : file.Holds path bytes) (none : file.held.bytes = []) (piece : Bytes) (tree : Tree) :
    ∃ after : OpenFile Writer, perform (send files piece) (file, tree) = (.ok (), after, tree) ∧
      after.Holds path (bytes ++ piece) := by
  obtain ⟨samePath, written, counted⟩ := holds
  rw [none, List.append_nil] at written
  unfold send
  by_cases empty : piece.isEmpty = true
  · rw [if_pos empty, perform_pure, List.isEmpty_iff.mp empty, List.append_nil]
    exact ⟨file, rfl, samePath, by rw [none, List.append_nil, written], counted⟩
  · rw [if_neg empty, perform_onPart, perform_write]
    refine ⟨_, rfl, samePath, ?_, counted⟩
    simp only
    rw [none, List.append_nil, Writer.written_write, written]

theorem perform_drain {file : OpenFile Writer} {path : Path} {bytes : Bytes}
    (holds : file.Holds path bytes) (tree : Tree) :
    ∃ after : OpenFile Writer, perform (drain files) (file, tree) = (.ok (), after, tree) ∧
      after.Holds path bytes ∧ after.held.bytes = [] := by
  obtain ⟨samePath, written, counted⟩ := holds
  have sent : ∃ writer : Writer, perform (send files file.held.bytes) (file, tree) =
      (.ok (), { file with writer }, tree) ∧ writer.path = path ∧ writer.written = bytes := by
    unfold send
    by_cases empty : file.held.bytes.isEmpty = true
    · rw [if_pos empty, perform_pure]
      rw [List.isEmpty_iff.mp empty, List.append_nil] at written
      exact ⟨file.writer, rfl, samePath, written⟩
    · rw [if_neg empty, perform_onPart, perform_write]
      exact ⟨_, rfl, samePath, by rw [Writer.written_write, written]⟩
  obtain ⟨writer, result, writerPath, writerBytes⟩ := sent
  refine ⟨{ writer, held := .empty }, ?_, ⟨writerPath, ?_, rfl⟩, rfl⟩
  · rw [drain, perform_bind, perform_get]
    simp only [perform_bind, result, perform_modify]
  · rw [HeldBytes.bytes_empty, List.append_nil, writerBytes]

theorem perform_write_piece {file : OpenFile Writer} {path : Path} {bytes : Bytes}
    (holds : file.Holds path bytes) (capacity : Nat) (piece : Bytes) (tree : Tree) :
    ∃ after : OpenFile Writer, perform (OpenFile.write files capacity piece) (file, tree) =
      (.ok (), after, tree) ∧ after.Holds path (bytes ++ piece) := by
  have placed {between : OpenFile Writer} (holds : between.Holds path bytes)
      (none : capacity ≤ piece.length → between.held.bytes = []) :
      ∃ after : OpenFile Writer, perform (if capacity ≤ piece.length then send files piece
        else modify fun file => { file with held := file.held.add piece }) (between, tree) =
          (.ok (), after, tree) ∧ after.Holds path (bytes ++ piece) := by
    by_cases large : capacity ≤ piece.length
    · rw [if_pos large]
      exact perform_send holds (none large) piece tree
    · rw [if_neg large, perform_modify]
      refine ⟨_, rfl, holds.path, ?_, ?_⟩
      · simp only
        rw [HeldBytes.bytes_add, ← List.append_assoc, holds.written]
      · simp only
        rw [HeldBytes.bytes_add, List.length_append, ← holds.counted]
        rfl
  rw [OpenFile.write, perform_bind, perform_get]
  simp only
  by_cases full : capacity < file.held.size + piece.length
  · obtain ⟨between, drained, betweenHolds, none⟩ := perform_drain holds tree
    rw [if_pos full, perform_bind_ok drained]
    exact placed betweenHolds fun _ => none
  · rw [if_neg full]
    -- A piece as long as the buffer that still fits finds the buffer empty.
    refine placed holds fun large => List.length_eq_zero_iff.mp ?_
    have counted := holds.counted
    omega

theorem perform_flush_file {file : OpenFile Writer} {path : Path} {bytes : Bytes}
    (holds : file.Holds path bytes) (tree : Tree) :
    ∃ after : OpenFile Writer, perform (OpenFile.flush files) (file, tree) =
      (.ok (), after, tree.putFile path bytes) ∧ after.Holds path bytes := by
  obtain ⟨between, drained, betweenHolds, none⟩ := perform_drain holds tree
  have written := betweenHolds.written
  rw [none, List.append_nil] at written
  refine ⟨between, ?_, betweenHolds⟩
  rw [OpenFile.flush, perform_bind_ok drained, perform_onPart, perform_flush, Tree.publish,
    betweenHolds.path, written]

theorem exec_close_file {file : OpenFile Writer} {path : Path} {bytes : Bytes}
    (holds : file.Holds path bytes) (tree : Tree) :
    exec (OpenFile.close files file) tree = ((), tree.putFile path bytes) := by
  obtain ⟨between, drained, betweenHolds, none⟩ := perform_drain holds tree
  have written := betweenHolds.written
  rw [none, List.append_nil] at written
  rw [OpenFile.close, exec_bind, exec_run, drained]
  simp only
  rw [exec_close, Tree.publish, betweenHolds.path, written]

end OpenFile

/-! Storing several files -/

namespace Memory.Tree

def storeAll : Tree → List (Path × Bytes) → Except IoError Tree
  | tree, [] => .ok tree
  | tree, (path, contents) :: rest => do storeAll (← tree.store path contents) rest

theorem store_all_cons {tree middle after : Tree} {path : Path} {contents : Bytes}
    {rest : List (Path × Bytes)} (first : tree.store path contents = .ok middle)
    (others : middle.storeAll rest = .ok after) :
    tree.storeAll ((path, contents) :: rest) = .ok after := by
  rw [storeAll, first]
  exact others

theorem store_all_cons_ok {tree after : Tree} {path : Path} {contents : Bytes}
    {rest : List (Path × Bytes)} (stored : tree.storeAll ((path, contents) :: rest) = .ok after) :
    ∃ middle, tree.store path contents = .ok middle ∧ middle.storeAll rest = .ok after := by
  unfold storeAll at stored
  cases first : tree.store path contents with
  | error error =>
      rw [first] at stored
      cases stored
  | ok middle =>
      rw [first] at stored
      exact ⟨middle, rfl, stored⟩

theorem store_all_append {tree middle after : Tree} {front back : List (Path × Bytes)}
    (first : tree.storeAll front = .ok middle) (second : middle.storeAll back = .ok after) :
    tree.storeAll (front ++ back) = .ok after := by
  induction front generalizing tree with
  | nil =>
      rw [storeAll, Except.ok.injEq] at first
      rw [List.nil_append, first, second]
  | cons file rest induction =>
      obtain ⟨path, contents⟩ := file
      obtain ⟨between, stored, others⟩ := store_all_cons_ok first
      exact store_all_cons stored (induction others)

theorem store_all_append_ok {tree after : Tree} {front back : List (Path × Bytes)}
    (stored : tree.storeAll (front ++ back) = .ok after) :
    ∃ middle, tree.storeAll front = .ok middle ∧ middle.storeAll back = .ok after := by
  induction front generalizing tree with
  | nil => exact ⟨tree, rfl, stored⟩
  | cons file rest induction =>
      obtain ⟨path, contents⟩ := file
      obtain ⟨between, first, others⟩ := store_all_cons_ok stored
      obtain ⟨middle, restStored, backStored⟩ := induction others
      exact ⟨middle, store_all_cons first restStored, backStored⟩

theorem store_all_keeps (inv : Tree → Prop) {stored : List (Path × Bytes)}
    (keeps : ∀ file ∈ stored, ∀ before after : Tree, inv before →
      before.store file.1 file.2 = .ok after → inv after) {tree after : Tree} (holds : inv tree)
    (done : tree.storeAll stored = .ok after) : inv after := by
  induction stored generalizing tree with
  | nil =>
      rw [storeAll, Except.ok.injEq] at done
      rwa [← done]
  | cons file rest induction =>
      obtain ⟨path, contents⟩ := file
      obtain ⟨middle, first, others⟩ := store_all_cons_ok done
      exact induction (fun other member => keeps other (List.mem_cons_of_mem _ member))
        (keeps (path, contents) List.mem_cons_self tree middle holds first) others

theorem contents_store_all_elsewhere {tree after : Tree} {stored : List (Path × Bytes)}
    {path : Path} (apart : ∀ file ∈ stored, path.same file.1 = false)
    (done : tree.storeAll stored = .ok after) : after.contents? path = tree.contents? path := by
  refine store_all_keeps (fun now => now.contents? path = tree.contents? path) ?_ rfl done
  intro file member before next holds first
  rw [contents_store first, if_neg (by simp [apart file member]), holds]

theorem failing_store_all {tree after : Tree} {stored : List (Path × Bytes)}
    (done : tree.storeAll stored = .ok after) : after.failing = tree.failing := by
  refine store_all_keeps (fun now => now.failing = tree.failing) ?_ rfl done
  intro file _ before next holds first
  rw [failing_store first, holds]

theorem contents_store_all {tree after : Tree} {stored : List (Path × Bytes)}
    (apart : stored.Pairwise fun first second => first.1.same second.1 = false)
    (done : tree.storeAll stored = .ok after) {path : Path} {contents : Bytes}
    (member : (path, contents) ∈ stored) : after.contents? path = some contents := by
  induction stored generalizing tree with
  | nil => exact absurd member (by simp)
  | cons file rest induction =>
      obtain ⟨first, bytes⟩ := file
      obtain ⟨middle, firstStored, others⟩ := store_all_cons_ok done
      rw [List.pairwise_cons] at apart
      rcases List.mem_cons.mp member with here | later
      · obtain ⟨rfl, rfl⟩ := Prod.mk.inj here
        rw [contents_store_all_elsewhere apart.1 others, contents_store firstStored,
          if_pos (Path.same_refl path)]
      · exact induction apart.2 others later

end Memory.Tree

/-! Spills -/

/-- How the writes of an emission end once they are made. -/
def Emission.result (emission : Emission) : Except IoError Unit :=
  match emission.failure with
  | none => .ok ()
  | some error => .error error

namespace ChunkWriter

def emitAll : List Record → Emission
  | [] => .complete
  | record :: rest => (emitRecord .data record).append (emitAll rest)

theorem contents_emit_record (record : Record) :
    (emitRecord .data record).contents .data = (emitRecord .data record).writes.flatMap (·.2) := by
  have toData (field : Bytes) : ∀ write ∈ (emitField .data field).writes, write.1 = .data := by
    rw [emitField]
    split
    · simp [Emission.fail]
    · simp
  have allData : ∀ write ∈ (emitRecord .data record).writes, write.1 = .data := by
    rw [emitRecord, Emission.append]
    split
    · exact toData record.key
    · intro write member
      rcases List.mem_append.mp member with inKey | inValue
      · exact toData record.key write inKey
      · exact toData record.value write inValue
  rw [Emission.contents, List.filter_eq_self.mpr]
  intro write member
  rw [allData write member]
  rfl

theorem emit_all_none {records : List Record} (done : (emitAll records).failure = none) :
    (∀ record ∈ records, record.Writable) ∧
      (emitAll records).contents .data = Record.encodeAll records := by
  induction records with
  | nil => exact ⟨by simp, rfl⟩
  | cons record rest induction =>
      rw [emitAll] at done ⊢
      obtain ⟨recordDone, restDone, contents⟩ := append_none done
      obtain ⟨writable, encoded, _⟩ := emit_record_none recordDone
      obtain ⟨restWritable, restEncoded⟩ := induction restDone
      refine ⟨List.forall_mem_cons.mpr ⟨writable, restWritable⟩, ?_⟩
      rw [contents, encoded, restEncoded, Record.encodeAll, Record.encodeAll, List.flatMap_cons]

end ChunkWriter

namespace Local

@[simp] theorem perform_raise_none {m : Type → Type} [Monad m] {σ ε : Type} [Stateful m σ]
    (state : σ) : perform (raise (none : Option ε) : ExceptT ε m Unit) state = (.ok (), state) :=
  perform_pure () state

@[simp] theorem perform_raise_some {m : Type → Type} [Monad m] {σ ε : Type} [Stateful m σ]
    (error : ε) (state : σ) :
    perform (raise (some error) : ExceptT ε m Unit) state = (.error error, state) :=
  perform_throw error state

theorem perform_writing {α : Type} (path : Path)
    (body : ExceptT IoError (StateT (OpenFile Writer) (StateM Tree)) α) (tree : Tree) :
    perform (writing files path body) tree =
      match tree.create path with
      | .error error => (.error error, tree)
      | .ok made =>
          ((perform body ({ writer := Writer.opened path }, made)).1,
            (exec (OpenFile.close files (perform body ({ writer := Writer.opened path }, made)).2.1)
              (perform body ({ writer := Writer.opened path }, made)).2.2).2) := by
  rw [writing, perform_bind, perform_create]
  cases tree.create path with
  | error error => rfl
  | ok made => rfl

theorem perform_send_all {file : OpenFile Writer} {path : Path} {bytes : Bytes}
    (holds : file.Holds path bytes) (capacity : Nat) (writes : List (ChunkFile × Bytes))
    (tree : Tree) :
    ∃ after : OpenFile Writer, perform (sendAll files capacity writes) (file, tree) =
      (.ok (), after, tree) ∧ after.Holds path (bytes ++ writes.flatMap (·.2)) := by
  induction writes generalizing file bytes with
  | nil => exact ⟨file, rfl, by simpa using holds⟩
  | cons write rest induction =>
      obtain ⟨target, piece⟩ := write
      obtain ⟨between, written, betweenHolds⟩ := file.perform_write_piece holds capacity piece tree
      obtain ⟨after, sent, afterHolds⟩ := induction betweenHolds
      refine ⟨after, by rw [sendAll, perform_bind_ok written, sent], ?_⟩
      rwa [List.flatMap_cons, ← List.append_assoc]

/-- To send records is to make their writes, whatever the size of the buffer. -/
theorem perform_send_records {file : OpenFile Writer} {path : Path} {bytes : Bytes}
    (holds : file.Holds path bytes) (capacity : Nat) (records : List Record) (tree : Tree) :
    ∃ after : OpenFile Writer, perform (sendRecords files capacity records) (file, tree) =
        ((ChunkWriter.emitAll records).result, after, tree) ∧
      after.Holds path (bytes ++ (ChunkWriter.emitAll records).contents .data) := by
  induction records generalizing file bytes with
  | nil => exact ⟨file, rfl, by simpa [ChunkWriter.emitAll, Emission.contents, Emission.complete]
      using holds⟩
  | cons record rest induction =>
      obtain ⟨between, sent, betweenHolds⟩ := perform_send_all holds capacity
        (ChunkWriter.emitRecord .data record).writes tree
      rw [← ChunkWriter.contents_emit_record] at betweenHolds
      rw [sendRecords, perform_bind_ok sent, ChunkWriter.emitAll, Emission.append]
      cases failed : (ChunkWriter.emitRecord .data record).failure with
      | some error =>
          refine ⟨between, ?_, betweenHolds⟩
          rw [perform_bind_error (perform_raise_some error _), Emission.result]
          simp only [failed]
      | none =>
          obtain ⟨after, restSent, afterHolds⟩ := induction betweenHolds
          refine ⟨after, by rw [perform_bind_ok (perform_raise_none _), restSent]; rfl, ?_⟩
          simp only
          rwa [ChunkWriter.contents_append _ _ _ none .data, ← List.append_assoc]

/-- What a spill does to a tree: its file is created, and then it has what could be written. -/
theorem perform_spill_eq (job : JobSpec) (routed : List Routed) (partition : UInt32) (tree : Tree) :
    perform (spill files job routed partition) tree =
      match tree.create (spillPath (spillDirectory job) partition) with
      | .error error => (.error error, tree)
      | .ok made =>
          ((ChunkWriter.emitAll (bucket routed partition)).result,
            made.putFile (spillPath (spillDirectory job) partition)
              ((ChunkWriter.emitAll (bucket routed partition)).contents .data)) := by
  rw [spill, perform_writing]
  cases tree.create (spillPath (spillDirectory job) partition) with
  | error error => rfl
  | ok made =>
      obtain ⟨after, sent, holds⟩ := perform_send_records
        (OpenFile.holds_opened (spillPath (spillDirectory job) partition)) job.bufferSize
        (bucket routed partition) made
      rw [List.nil_append] at holds
      rw [Emission.result] at sent ⊢
      cases failed : (ChunkWriter.emitAll (bucket routed partition)).failure with
      | some error =>
          simp only [failed] at sent
          simp only [perform_bind_error sent, OpenFile.exec_close_file holds]
      | none =>
          simp only [failed] at sent
          obtain ⟨flushed, result, flushedHolds⟩ := OpenFile.perform_flush_file holds made
          simp only [perform_bind_ok sent, result, OpenFile.exec_close_file flushedHolds]
          rw [Tree.put_put]

/-- Where a computation leaves a tree: as it was, or with one more file stored. -/
inductive Spilled (tree : Tree) (path : Path) (records : List Record) :
    Except IoError Unit × Tree → Prop
  | refused (error : IoError) : Spilled tree path records (.error error, tree)
  | stopped (error : IoError) (bytes : Bytes) (after : Tree)
      (stored : tree.store path bytes = .ok after) :
      Spilled tree path records (.error error, after)
  | complete (after : Tree) (writable : ∀ record ∈ records, record.Writable)
      (stored : tree.store path (Record.encodeAll records) = .ok after) :
      Spilled tree path records (.ok (), after)

theorem perform_spill (job : JobSpec) (routed : List Routed) (partition : UInt32) (tree : Tree) :
    Spilled tree (spillPath (spillDirectory job) partition) (bucket routed partition)
      (perform (spill files job routed partition) tree) := by
  rw [perform_spill_eq, Emission.result]
  cases created : tree.create (spillPath (spillDirectory job) partition) with
  | error error => exact .refused error
  | ok made =>
      have stores (bytes : Bytes) : tree.store (spillPath (spillDirectory job) partition) bytes =
          .ok (made.putFile (spillPath (spillDirectory job) partition) bytes) := by
        rw [Tree.store, created]
        rfl
      cases failed : (ChunkWriter.emitAll (bucket routed partition)).failure with
      | some error => exact .stopped error _ _ (stores _)
      | none =>
          obtain ⟨writable, encoded⟩ := ChunkWriter.emit_all_none failed
          rw [encoded]
          exact .complete _ writable (stores _)

end Local

end ChunkStore
