import ChunkStore.Proofs.RecordReading

/-!
The index of a chunk. Its writer counts offsets by itself, apart from the bytes that it writes; the
two agree for every list of records, so each entry of the index addresses its record in the data.
Writing stops only at a field or at a start that has no 32-bit number, and a record that starts
below the limit may end beyond it.
-/

namespace ChunkStore

set_option autoImplicit false

open Stateful

namespace Record

/-! Where records start -/

/-- Where a record starts in the data of its chunk: behind the written forms of those before it. -/
def start (records : List Record) (position : Nat) : Nat :=
  (encodeAll (records.take position)).length

theorem start_zero (records : List Record) : start records 0 = 0 := rfl

theorem start_cons_succ (record : Record) (rest : List Record) (position : Nat) :
    start (record :: rest) (position + 1) = record.size + start rest position := by
  rw [start, List.take_succ_cons, encode_all_cons, List.length_append, length_encode]
  rfl

theorem start_succ {records : List Record} {position : Nat} (inside : position < records.length) :
    start records (position + 1) = start records position + records[position].size := by
  rw [start, List.take_succ_eq_append_getElem inside, encodeAll, List.flatMap_append,
    List.length_append, List.flatMap_singleton, length_encode]
  rfl

theorem start_end (records : List Record) :
    start records records.length = (encodeAll records).length := by
  rw [start, List.take_length]

theorem size_positive (record : Record) : 0 < record.size := by
  unfold size
  omega

theorem start_increases {records : List Record} {earlier later : Nat} (before : earlier < later)
    (inside : later ≤ records.length) : start records earlier < start records later := by
  induction later with
  | zero => exact absurd before (Nat.not_lt_zero _)
  | succ later induction =>
      have grows : start records (later + 1) = start records later + records[later].size :=
        start_succ inside
      have positive := records[later].size_positive
      rcases Nat.lt_succ_iff_lt_or_eq.mp before with sooner | rfl
      · have sofar := induction sooner (Nat.le_of_succ_le inside)
        omega
      · omega

theorem drop_start (records : List Record) (position : Nat) :
    (encodeAll records).drop (start records position) = encodeAll (records.drop position) := by
  have split : encodeAll records =
      encodeAll (records.take position) ++ encodeAll (records.drop position) := by
    rw [encodeAll, encodeAll, encodeAll, ← List.flatMap_append, List.take_append_drop]
  rw [split, start, List.drop_left]

/-- Between two offsets of some data lies a record: any source of the data from the first one on
gives its key and then its value, and has the data from the second one on ahead afterwards. -/
def Lies (record : Record) (data : Bytes) (first last : Nat) : Prop :=
  ∀ {m : Type → Type} [Monad m] {σ : Type} [Stateful m σ] {source : Source m}
    {ahead : Bytes → σ → Prop}, source.Delivers ahead →
    ∀ (patience : Nat) (state : σ), record.size ≤ patience → ahead (data.drop first) state →
      ∃ middle after, perform (field source patience) state = (.ok (some record.key), middle) ∧
        perform (field source patience) middle = (.ok (some record.value), after) ∧
          ahead (data.drop last) after

theorem lies_of_written {records : List Record} (writable : ∀ record ∈ records, record.Writable)
    {position : Nat} (inside : position < records.length) :
    records[position].Lies (encodeAll records) (start records position)
      (start records (position + 1)) := by
  intro m _ σ _ source ahead delivers patience state patient holds
  rw [drop_start, List.drop_eq_getElem_cons inside, encode_all_cons] at holds
  rw [drop_start]
  exact record_delivers delivers patience _ _ state holds
    (writable _ (List.getElem_mem inside)) patient

end Record

namespace ChunkWriter

open Record

/-! When writing is complete -/

theorem append_complete_iff (earlier later : Emission) :
    (earlier.append later).failure = none ↔ earlier.failure = none ∧ later.failure = none := by
  obtain ⟨writes, failure⟩ := earlier
  cases failure with
  | none => simp [Emission.append]
  | some error => simp [Emission.append]

theorem field_complete_iff (file : ChunkFile) (field : Bytes) :
    (emitField file field).failure = none ↔ field.length ≤ maxField := by
  unfold emitField
  split
  · simp only [Emission.fail, reduceCtorEq, false_iff]
    omega
  · simp only [true_iff]
    omega

theorem record_complete_iff (file : ChunkFile) (record : Record) :
    (emitRecord file record).failure = none ↔ record.Writable := by
  rw [emitRecord, append_complete_iff, field_complete_iff, field_complete_iff]
  constructor
  · rintro ⟨key, value⟩
    exact ⟨key, value⟩
  · intro writable
    exact ⟨writable.key, writable.value⟩

/-- The offset that the writer counts is where the bytes that it writes have come to. -/
theorem binary_complete_iff (offset : Nat) (records : List Record) :
    (emitBinary offset records).failure = none ↔
      (∀ record ∈ records, record.Writable) ∧
        ∀ position < records.length, offset + start records position < UInt32.size := by
  -- The starts behind the first record are those of the rest, counted from where that record ends.
  induction records generalizing offset with
  | nil => simp [emitBinary, Emission.complete]
  | cons record rest induction =>
      rw [emitBinary, List.length_cons, Nat.forall_lt_succ_left, List.forall_mem_cons]
      simp only [start_cons_succ, start_zero, Nat.add_zero, ← Nat.add_assoc]
      by_cases large : UInt32.size ≤ offset
      · rw [if_pos large]
        simp only [Emission.fail, reduceCtorEq, false_iff]
        omega
      · rw [if_neg large, append_complete_iff, append_complete_iff, record_complete_iff,
          induction (offset + record.size)]
        constructor
        · rintro ⟨⟨_, writable⟩, restWritable, restBelow⟩
          exact ⟨⟨writable, restWritable⟩, by omega, restBelow⟩
        · rintro ⟨⟨writable, restWritable⟩, _, restBelow⟩
          exact ⟨⟨rfl, writable⟩, restWritable, restBelow⟩

/-! Entries -/

def entryAt (index : Bytes) (position : Nat) : Bytes :=
  (index.drop (indexEntrySize * position)).take indexEntrySize

def offsetAt (index : Bytes) (position : Nat) : Nat :=
  Bytes.toNat ((entryAt index position).drop Md5.digestSize)

theorem length_entry (record : Record) (offset : Nat) :
    (entry record offset).length = indexEntrySize := by
  rw [entry, List.length_append, Md5.digest_length]
  rfl

theorem entry_at_zero {front : Bytes} (whole : front.length = indexEntrySize) (back : Bytes) :
    entryAt (front ++ back) 0 = front := by
  rw [entryAt, Nat.mul_zero, List.drop_zero, List.take_left' whole]

theorem entry_at_succ {front : Bytes} (whole : front.length = indexEntrySize) (back : Bytes)
    (position : Nat) : entryAt (front ++ back) (position + 1) = entryAt back position := by
  rw [entryAt, Nat.mul_succ, Nat.add_comm, ← List.drop_drop, List.drop_left' whole, entryAt]

theorem length_index {offset : Nat} {records : List Record}
    (done : (emitBinary offset records).failure = none) :
    ((emitBinary offset records).contents .index).length = indexEntrySize * records.length := by
  induction records generalizing offset with
  | nil => rfl
  | cons record rest induction =>
      obtain ⟨_, restDone, _, index⟩ := emit_binary_cons done
      rw [index, List.length_append, length_entry, induction restDone, List.length_cons,
        Nat.mul_succ, Nat.add_comm]

theorem entry_at_position {offset : Nat} {records : List Record}
    (done : (emitBinary offset records).failure = none) {position : Nat}
    (inside : position < records.length) :
    entryAt ((emitBinary offset records).contents .index) position =
      entry records[position] (offset + start records position) := by
  induction records generalizing offset position with
  | nil => exact absurd inside (Nat.not_lt_zero _)
  | cons record rest induction =>
      obtain ⟨_, restDone, _, index⟩ := emit_binary_cons done
      rw [index]
      cases position with
      | zero => exact entry_at_zero (length_entry _ _) _
      | succ position =>
          rw [entry_at_succ (length_entry _ _), induction restDone (Nat.lt_of_succ_lt_succ inside),
            start_cons_succ, ← Nat.add_assoc]
          rfl

theorem offset_of_entry {record : Record} {offset : Nat} (fits : offset < UInt32.size) :
    Bytes.toNat ((entry record offset).drop Md5.digestSize) = offset := by
  rw [entry, List.drop_left' (Md5.digest_length _), Bytes.to_nat_of_word,
    UInt32.toNat_ofNat_of_lt' fits]

/-! The index as a whole -/

/-- Where the record at a position ends, read off the index: where the next one starts, and for the
last one at the end of the data. -/
def endAt (data index : Bytes) (count position : Nat) : Nat :=
  if position + 1 < count then offsetAt index (position + 1) else data.length

/-- An index has an entry of fixed width for every record, with the digest of its key and the
offset at which the record lies in the data; the records lie there in turn and without gaps. -/
structure Indexes (records : List Record) (data index : Bytes) : Prop where
  width : index.length = indexEntrySize * records.length
  entries : ∀ (position : Nat) (inside : position < records.length),
    entryAt index position = Md5.digest records[position].key ++
      Bytes.ofWord (UInt32.ofNat (offsetAt index position))
  first : 0 < records.length → offsetAt index 0 = 0
  increasing : ∀ earlier later, earlier < later → later < records.length →
    offsetAt index earlier < offsetAt index later
  adjoining : ∀ (position : Nat) (inside : position < records.length),
    offsetAt index position + records[position].size = endAt data index records.length position
  addressed : ∀ (position : Nat) (inside : position < records.length),
    records[position].Lies data (offsetAt index position)
      (endAt data index records.length position)

theorem indexes_of_complete {records : List Record} (done : (emitBinary 0 records).failure = none) :
    Indexes records ((emitBinary 0 records).contents .data)
      ((emitBinary 0 records).contents .index) := by
  obtain ⟨writable, below⟩ := (binary_complete_iff 0 records).mp done
  obtain ⟨_, data⟩ := emit_binary_none done
  rw [data]
  have stated {position : Nat} (inside : position < records.length) :
      entryAt ((emitBinary 0 records).contents .index) position =
        entry records[position] (start records position) := by
    rw [entry_at_position done inside, Nat.zero_add]
  have offset {position : Nat} (inside : position < records.length) :
      offsetAt ((emitBinary 0 records).contents .index) position = start records position := by
    have fits := below position inside
    rw [Nat.zero_add] at fits
    rw [offsetAt, stated inside, offset_of_entry fits]
  have finish {position : Nat} (inside : position < records.length) :
      endAt (encodeAll records) ((emitBinary 0 records).contents .index) records.length position =
        start records (position + 1) := by
    unfold endAt
    split
    · exact offset ‹_›
    · rw [← start_end, show records.length = position + 1 by omega]
  -- Every field of the index is now a fact about the starts.
  refine ⟨length_index done, ?_, ?_, ?_, ?_, ?_⟩
  · intro position inside
    rw [offset inside, stated inside, entry]
  · intro present
    rw [offset present, start_zero]
  · intro earlier later before inside
    rw [offset (Nat.lt_trans before inside), offset inside]
    exact start_increases before (Nat.le_of_lt inside)
  · intro position inside
    rw [offset inside, finish inside, start_succ inside]
  · intro position inside
    rw [offset inside, finish inside]
    exact lies_of_written writable inside

/-- Writing a chunk is complete exactly when every field and the start of every record have 32-bit
numbers, wherever the last record ends; and the index of a complete chunk addresses every record in
its data. -/
theorem index_addresses_records (records : List Record) :
    ((binary.emit records).failure = none ↔
        (∀ record ∈ records,
          record.key.length < UInt32.size ∧ record.value.length < UInt32.size) ∧
          ∀ position < records.length, start records position ≤ UInt32.size - 1) ∧
      ((binary.emit records).failure = none →
        Indexes records ((binary.emit records).contents .data)
          ((binary.emit records).contents .index)) := by
  refine ⟨?_, indexes_of_complete⟩
  have below (offset : Nat) : 0 + offset < UInt32.size ↔ offset ≤ UInt32.size - 1 := by
    rw [Nat.zero_add]
    exact (le_max_field_iff offset).symm
  rw [show binary.emit records = emitBinary 0 records from rfl, binary_complete_iff]
  simp only [writable_iff, below]

theorem sample_records_addressed :
    (binary.emit sampleRecords).failure = none ∧
      Indexes sampleRecords ((binary.emit sampleRecords).contents .data)
        ((binary.emit sampleRecords).contents .index) := by
  have done : (binary.emit sampleRecords).failure = none :=
    (index_addresses_records sampleRecords).1.mpr ⟨by decide, by decide⟩
  exact ⟨done, (index_addresses_records sampleRecords).2 done⟩

end ChunkWriter

end ChunkStore
