import ChunkStore.Proofs.ChunkNames
import ChunkStore.Proofs.Mapping
import ChunkStore.Proofs.Sorting
import ChunkStore.Proofs.Writing

/-!
Reducing one partition. Its spill is read back whole or not at all, and its chunk is two files that
are written side by side; what the tree holds afterwards is the same as if the data file had been
stored first and the index file after it.
-/

namespace ChunkStore.Local

set_option autoImplicit false

open Stateful Memory

/-! Writing a chunk -/

namespace ChunkPair

structure Holds (pair : ChunkPair Writer) (data index : Path) (dataBytes indexBytes : Bytes) :
    Prop where
  data : pair.data.Holds data dataBytes
  index : pair.index.Holds index indexBytes

theorem perform_send {pair : ChunkPair Writer} {data index : Path} {dataBytes indexBytes : Bytes}
    (holds : pair.Holds data index dataBytes indexBytes) (capacity : Nat)
    (writes : List (ChunkFile × Bytes)) (tree : Tree) :
    ∃ after : ChunkPair Writer, perform (ChunkPair.send files capacity writes) (pair, tree) =
      (.ok (), after, tree) ∧
      after.Holds data index (dataBytes ++ (Emission.mk writes none).contents .data)
        (indexBytes ++ (Emission.mk writes none).contents .index) := by
  induction writes generalizing pair dataBytes indexBytes with
  | nil => exact ⟨pair, rfl, by simpa [Emission.contents] using holds⟩
  | cons write rest induction =>
      obtain ⟨target, piece⟩ := write
      cases target with
      | data =>
          obtain ⟨between, written, betweenHolds⟩ :=
            pair.data.perform_write_piece holds.data capacity piece tree
          have placed : perform (onData (OpenFile.write files capacity piece)) (pair, tree) =
              (.ok (), { pair with data := between }, tree) := by
            rw [onData, perform_onPart, written]
          obtain ⟨after, sent, afterHolds⟩ :=
            @induction { pair with data := between } _ _ ⟨betweenHolds, holds.index⟩
          refine ⟨after, by rw [ChunkPair.send, perform_bind_ok placed, sent], ?_⟩
          have dataBytes' : (Emission.mk ((ChunkFile.data, piece) :: rest) none).contents .data =
              piece ++ (Emission.mk rest none).contents .data := rfl
          have indexBytes' : (Emission.mk ((ChunkFile.data, piece) :: rest) none).contents .index =
              (Emission.mk rest none).contents .index := rfl
          rwa [dataBytes', indexBytes', ← List.append_assoc]
      | index =>
          obtain ⟨between, written, betweenHolds⟩ :=
            pair.index.perform_write_piece holds.index capacity piece tree
          have placed : perform (onIndex (OpenFile.write files capacity piece)) (pair, tree) =
              (.ok (), { pair with index := between }, tree) := by
            rw [onIndex, perform_onPart, written]
          obtain ⟨after, sent, afterHolds⟩ :=
            @induction { pair with index := between } _ _ ⟨holds.data, betweenHolds⟩
          refine ⟨after, by rw [ChunkPair.send, perform_bind_ok placed, sent], ?_⟩
          have dataBytes' : (Emission.mk ((ChunkFile.index, piece) :: rest) none).contents .data =
              (Emission.mk rest none).contents .data := rfl
          have indexBytes' : (Emission.mk ((ChunkFile.index, piece) :: rest) none).contents .index =
              piece ++ (Emission.mk rest none).contents .index := rfl
          rwa [dataBytes', indexBytes', ← List.append_assoc]

end ChunkPair

/-- Where writing a chunk leaves a tree: as it was, with an empty data file, or with both files. -/
inductive ChunkWritten (tree : Tree) (data index : Path) (emission : Emission) :
    Except IoError Unit × Tree → Prop
  | refused (error : IoError) : ChunkWritten tree data index emission (.error error, tree)
  | alone (error : IoError) (after : Tree) (stored : tree.store data [] = .ok after) :
      ChunkWritten tree data index emission (.error error, after)
  | stopped (error : IoError) (dataBytes indexBytes : Bytes) (after : Tree)
      (stored : tree.storeAll [(data, dataBytes), (index, indexBytes)] = .ok after) :
      ChunkWritten tree data index emission (.error error, after)
  | complete (after : Tree) (whole : emission.failure = none)
      (stored : tree.storeAll [(data, emission.contents .data), (index, emission.contents .index)] =
        .ok after) :
      ChunkWritten tree data index emission (.ok (), after)

theorem store_pair {tree madeData made : Tree} {data index : Path}
    (createdData : tree.create data = .ok madeData)
    (createdIndex : madeData.create index = .ok made) (apart : index.same data = false)
    (dataBytes indexBytes : Bytes) :
    tree.storeAll [(data, dataBytes), (index, indexBytes)] =
      .ok ((made.putFile index indexBytes).putFile data dataBytes) := by
  have there : madeData.node? data = some (.file []) := by
    rw [Tree.node_create createdData, if_pos (Path.same_refl data)]
  have still : (made.node? data).isSome := by
    rw [Tree.node_create createdIndex, if_neg (by rw [Path.same_comm]; simp [apart]), there]
    rfl
  have first : tree.store data dataBytes = .ok (madeData.putFile data dataBytes) := by
    rw [Tree.store, createdData]
    rfl
  have second : (madeData.putFile data dataBytes).store index indexBytes =
      .ok ((made.putFile index indexBytes).putFile data dataBytes) := by
    rw [Tree.store, Tree.create_put there apart, createdIndex]
    simp only [Except.map]
    rw [Tree.put_comm still apart]
  exact Tree.store_all_cons first (Tree.store_all_cons second rfl)

theorem data_index_apart (chunk : ChunkId) (output : Path) :
    (chunk.indexPath output).same (chunk.dataPath output) = false := by
  rw [Bool.eq_false_iff, data_path_eq, index_path_eq]
  intro same
  exact absurd (file_path_injective same).2 (by simp)

/-- What writing a chunk does to a tree: both files are created, and then each has what could be
written to it. -/
theorem perform_write_chunk_eq (job : JobSpec) (chunk : ChunkId) (records : List Record)
    (tree : Tree) :
    perform (writeChunk files job chunk records) tree =
      match tree.create (chunk.dataPath job.output) with
      | .error error => (.error error, tree)
      | .ok madeData =>
          match madeData.create (chunk.indexPath job.output) with
          | .error error => (.error error, madeData.putFile (chunk.dataPath job.output) [])
          | .ok made =>
              ((job.writer.emit records).result,
                (made.putFile (chunk.indexPath job.output)
                    ((job.writer.emit records).contents .index)).putFile
                  (chunk.dataPath job.output) ((job.writer.emit records).contents .data)) := by
  have apart := data_index_apart chunk job.output
  rw [writeChunk, perform_bind, perform_create]
  cases createdData : tree.create (chunk.dataPath job.output) with
  | error error => rfl
  | ok madeData =>
      simp only
      rw [perform_bind, perform_outcome, perform_create]
      cases createdIndex : madeData.create (chunk.indexPath job.output) with
      | error error => rfl
      | ok made =>
          -- Creating the index leaves the data file there, so both are written over in place.
          have still : (made.node? (chunk.dataPath job.output)).isSome := by
            rw [Tree.node_create createdIndex, if_neg (by rw [Path.same_comm]; simp [apart]),
              Tree.node_create createdData, if_pos (Path.same_refl _)]
            rfl
          have opened : ChunkPair.Holds
              { data := { writer := Writer.opened (chunk.dataPath job.output) },
                index := { writer := Writer.opened (chunk.indexPath job.output) } }
              (chunk.dataPath job.output) (chunk.indexPath job.output) [] [] :=
            ⟨OpenFile.holds_opened _, OpenFile.holds_opened _⟩
          obtain ⟨pair, sent, holds⟩ := ChunkPair.perform_send opened job.bufferSize
            (job.writer.emit records).writes made
          simp only [perform_mk, exec_bind, exec_run, exec_pure, Emission.result]
          cases failed : (job.writer.emit records).failure with
          | some error =>
              rw [perform_bind_ok sent, perform_bind_error (perform_raise_some error _)]
              rw [OpenFile.exec_close_file holds.index, OpenFile.exec_close_file holds.data]
              rfl
          | none =>
              obtain ⟨data, flushedData, dataHolds⟩ :=
                OpenFile.perform_flush_file holds.data made
              have dataDone : perform (ChunkPair.onData (OpenFile.flush files)) (pair, made) =
                  (.ok (), { pair with data }, made.putFile (chunk.dataPath job.output)
                    ([] ++
                      (Emission.mk (job.writer.emit records).writes none).contents .data)) := by
                rw [ChunkPair.onData, perform_onPart, flushedData]
              obtain ⟨index, flushedIndex, indexHolds⟩ :=
                OpenFile.perform_flush_file holds.index (made.putFile (chunk.dataPath job.output)
                    ([] ++ (Emission.mk (job.writer.emit records).writes none).contents .data))
              rw [perform_bind_ok sent, perform_bind_ok (perform_raise_none _),
                perform_bind_ok dataDone, ChunkPair.onIndex, perform_onPart, flushedIndex]
              simp only
              rw [OpenFile.exec_close_file indexHolds, OpenFile.exec_close_file dataHolds]
              simp only
              rw [Tree.put_put, Tree.put_comm still apart, Tree.put_put]
              rfl

theorem perform_write_chunk (job : JobSpec) (chunk : ChunkId) (records : List Record)
    (tree : Tree) :
    ChunkWritten tree (chunk.dataPath job.output) (chunk.indexPath job.output)
      (job.writer.emit records) (perform (writeChunk files job chunk records) tree) := by
  rw [perform_write_chunk_eq, Emission.result]
  cases createdData : tree.create (chunk.dataPath job.output) with
  | error error => exact .refused error
  | ok madeData =>
      simp only
      cases createdIndex : madeData.create (chunk.indexPath job.output) with
      | error error =>
          have emptied : tree.store (chunk.dataPath job.output) [] =
              .ok (madeData.putFile (chunk.dataPath job.output) []) := by
            rw [Tree.store, createdData]
            rfl
          exact .alone error _ emptied
      | ok made =>
          have stores := store_pair createdData createdIndex (data_index_apart chunk job.output)
          cases failed : (job.writer.emit records).failure with
          | some error => exact .stopped error _ _ _ (stores _ _)
          | none => exact .complete _ failed (stores _ _)

/-! Reading a spill back -/

theorem keeps_read_spill (inv : Tree → Prop) (job : JobSpec) (partition : UInt32) :
    Keeps inv (readSpill files job partition) := by
  apply keeps_reading files id _ _ (keeps_open inv _)
  intro patience
  refine keeps_through_buffer (fun state : Reader × Tree => inv state.2)
    (Record.keeps_read_all ?_ patience)
  intro size
  exact Source.keeps_buffered (keeps_read inv) job.bufferSize size

theorem buffered_failing (capacity size : Nat) (tree : Tree) :
    perform (Source.buffered files.read capacity size) ([], .failing, tree) =
      (.error (.other "injected read failure"), [], .failing, tree) := by
  rw [Source.buffered, perform_bind, perform_get]
  simp only [List.isEmpty_nil, true_and]
  split
  · rw [perform_below, perform_read]
    rfl
  · rw [Source.fill, perform_bind, perform_bind, perform_get]
    simp only [perform_bind, perform_below, perform_read, Reader.read]

theorem read_all_failing (capacity patience : Nat) (tree : Tree) :
    (perform (Record.readAll (Source.buffered files.read capacity) (patience + 1))
      ([], .failing, tree)).1 = .error (.other "injected read failure") := by
  have header : perform (Record.header (Source.buffered files.read capacity) 4 [])
      ([], .failing, tree) = (.error (.other "injected read failure"), [], .failing, tree) := by
    rw [Record.header]
    exact perform_bind_error (buffered_failing capacity 4 tree) _
  rw [Record.readAll, Record.collect, Record.field,
    perform_bind_error (perform_bind_error header _)]

theorem read_spill_ok {job : JobSpec} {partition : UInt32} {records found : List Record}
    {tree after : Tree} (room : 0 < job.bufferSize)
    (writable : ∀ record ∈ records, record.Writable)
    (spilled : tree.contents? (spillPath (spillDirectory job) partition) =
      some (Record.encodeAll records))
    (done : perform (readSpill files job partition) tree = (.ok found, after)) :
    found = records ∧ after = tree := by
  have kept := tree_of_keeps (fun inv => keeps_read_spill inv job partition) tree
  rw [done] at kept
  refine ⟨?_, (Prod.mk.inj kept).2⟩
  obtain ⟨contents, ⟨stored, _⟩, result, _⟩ := reading_ok
    (by rw [perform_through_buffer, read_all_failing]; simp) done
  rw [spilled, Option.some.injEq] at stored
  rw [← stored, perform_through_buffer] at result
  obtain ⟨final, given, _⟩ := Record.read_all_delivers
    (Source.buffered_delivers (reader_delivers tree) room)
    ((Record.encodeAll records).length + 1) records ([], .rest (Record.encodeAll records), tree)
    (Source.held_ahead_of_empty rfl) writable (Nat.le_succ _)
  rw [given] at result
  exact (Except.ok.inj result).symm

/-! Reducing -/

def chunkFiles (job : JobSpec) (records : UInt32 → List Record) (partition : UInt32) :
    List (Path × Bytes) :=
  match job.chunkFor partition with
  | none => []
  | some chunk =>
      let emission := job.writer.emit (Record.sortByKey (records partition))
      [(chunk.filePath job.output .data, emission.contents .data),
        (chunk.filePath job.output .index, emission.contents .index)]

def IsChunkPath (job : JobSpec) (path : Path) : Prop :=
  ∃ partition chunk file, job.chunkFor partition = some chunk ∧
    path = chunk.filePath job.output file

structure Reduced (job : JobSpec) (records : UInt32 → List Record) (partition : UInt32) : Prop where
  hasChunk : ∃ chunk, job.chunkFor partition = some chunk
  whole : (job.writer.emit (Record.sortByKey (records partition))).failure = none

theorem reduce_ok {job : JobSpec} {partition : UInt32} {records : UInt32 → List Record}
    {tree after : Tree} {count : Nat} (room : 0 < job.bufferSize)
    (writable : ∀ record ∈ records partition, record.Writable)
    (spilled : tree.contents? (spillPath (spillDirectory job) partition) =
      some (Record.encodeAll (records partition)))
    (done : perform (reduce files job partition) tree = (.ok count, after)) :
    Reduced job records partition ∧ count = (records partition).length ∧
      tree.storeAll (chunkFiles job records partition) = .ok after := by
  unfold reduce at done
  cases found : job.chunkFor partition with
  | none =>
      rw [found, perform_throw] at done
      exact absurd (congrArg Prod.fst done) (by simp)
  | some chunk =>
      simp only [found] at done
      rw [perform_bind, perform_adapt] at done
      cases read : perform (readSpill files job partition) tree with
      | mk result between =>
          cases result with
          | error error =>
              simp only [read, map_error_error] at done
              exact absurd (congrArg Prod.fst done) (by simp)
          | ok given =>
              obtain ⟨same, unchanged⟩ := read_spill_ok room writable spilled read
              simp only [read, map_error_ok] at done
              rw [same, unchanged, perform_bind, perform_adapt] at done
              have written := perform_write_chunk job chunk
                (Record.sortByKey (records partition)) tree
              generalize perform (writeChunk files job chunk
                (Record.sortByKey (records partition))) tree = outcome at written done
              cases written with
              | refused error => exact absurd (congrArg Prod.fst done) (by simp)
              | alone error after stored =>
                  exact absurd (congrArg Prod.fst done) (by simp)
              | stopped error dataBytes indexBytes after stored =>
                  exact absurd (congrArg Prod.fst done) (by simp)
              | complete final whole stored =>
                  simp only [map_error_ok, perform_pure, Prod.mk.injEq, Except.ok.injEq] at done
                  refine ⟨⟨⟨chunk, found⟩, whole⟩, done.1.symm, ?_⟩
                  rw [chunkFiles, found, ← done.2]
                  exact stored

/-- However a reduction ends, it has only stored files at places for chunks. -/
theorem reduce_exits (job : JobSpec) (partition : UInt32) (tree : Tree) :
    ∃ stored, tree.storeAll stored = .ok (perform (reduce files job partition) tree).2 ∧
      ∀ file ∈ stored, IsChunkPath job file.1 := by
  unfold reduce
  cases found : job.chunkFor partition with
  | none => exact ⟨[], rfl, by simp⟩
  | some chunk =>
      simp only
      have kept := tree_of_keeps (fun inv => keeps_read_spill inv job partition) tree
      rw [perform_bind, perform_adapt, kept]
      cases (perform (readSpill files job partition) tree).1 with
      | error error => exact ⟨[], rfl, by simp⟩
      | ok records =>
          simp only [map_error_ok]
          rw [perform_bind, perform_adapt]
          have isData : IsChunkPath job (chunk.dataPath job.output) :=
            ⟨partition, chunk, .data, found, rfl⟩
          have isIndex : IsChunkPath job (chunk.indexPath job.output) :=
            ⟨partition, chunk, .index, found, rfl⟩
          have written := perform_write_chunk job chunk (Record.sortByKey records) tree
          generalize perform (writeChunk files job chunk (Record.sortByKey records)) tree =
            outcome at written
          cases written with
          | refused error => exact ⟨[], rfl, by simp⟩
          | alone error after stored =>
              exact ⟨[(chunk.dataPath job.output, [])], Tree.store_all_cons stored rfl,
                by simpa using isData⟩
          | stopped error dataBytes indexBytes after stored =>
              exact ⟨_, stored, by simpa using ⟨isData, isIndex⟩⟩
          | complete after whole stored =>
              exact ⟨_, stored, by simpa using ⟨isData, isIndex⟩⟩

end ChunkStore.Local
