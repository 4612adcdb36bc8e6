import ChunkStore.Job.Strategies
import ChunkStore.Proofs.Sources

/-!
Records come back as they were written. Reading is by frames, so it is shown one frame at a time:
the four bytes of a length, a field, a record, and then all records up to a clean end.
-/

namespace ChunkStore

set_option autoImplicit false

open Stateful

/-! Words -/

theorem Bytes.to_nat_of_word (word : UInt32) : Bytes.toNat (Bytes.ofWord word) = word.toNat := by
  have bound := word.toNat_lt
  simp only [Bytes.toNat, Bytes.ofWord, List.foldl_cons, List.foldl_nil, UInt32.toNat_toUInt8,
    UInt32.toNat_shiftRight, Nat.shiftRight_eq_div_pow]
  simp only [UInt32.reduceToNat, Nat.reduceMod, Nat.reducePow]
  omega

namespace Record

@[simp] theorem length_length_bytes (length : Nat) : (lengthBytes length).length = 4 := rfl

theorem to_nat_length_bytes {length : Nat} (short : length ≤ maxField) :
    Bytes.toNat (lengthBytes length) = length := by
  have fits : length < UInt32.size := by
    have size : 0 < UInt32.size := by decide
    unfold maxField at short
    omega
  rw [lengthBytes, Bytes.to_nat_of_word, UInt32.toNat_ofNat_of_lt' fits]

structure Writable (record : Record) : Prop where
  key : record.key.length ≤ maxField
  value : record.value.length ≤ maxField

/-! One frame -/

section frames

variable {m : Type → Type} [Monad m] {σ : Type} [Stateful m σ] {source : Source m}
  {ahead : Bytes → σ → Prop}

theorem header_delivers (delivers : source.Delivers ahead) (missing : Nat)
    (got front back : Bytes) (state : σ) (holds : ahead (front ++ back) state)
    (whole : got.length + front.length = 4) (present : front ≠ [])
    (enough : front.length ≤ missing) :
    ∃ after,
      perform (header source missing got) state = (.ok (some (got.reverse ++ front)), after) ∧
        ahead back after := by
  induction missing generalizing got front state with
  | zero =>
      have none : front = [] := List.length_eq_zero_iff.mp (by omega)
      exact absurd none present
  | succ missing induction =>
      have positive := List.length_pos_iff.mpr present
      obtain ⟨piece, rest, after, read, split, holdsRest, short, ends⟩ :=
        delivers (front ++ back) state (4 - got.length) holds (by omega)
      rw [header, perform_bind, read]
      cases piece with
      | nil =>
          have none := ends rfl
          exact absurd (List.append_eq_nil_iff.mp none).1 present
      | cons first others =>
          simp only
          obtain ⟨left, begins, behind⟩ := Source.piece_of_front split (by omega)
          have length := Source.length_reverse_aux (first :: others) got
          have gotten := Source.reverse_reverse_aux (first :: others) got
          have cut : front.length = (first :: others).length + left.length := by
            rw [begins, List.length_append]
          rw [List.length_cons] at length cut
          by_cases done : 4 ≤ ((first :: others).reverseAux got).length
          · have none : left = [] := List.length_eq_zero_iff.mp (by omega)
            rw [none, List.append_nil] at begins
            rw [none, List.nil_append] at behind
            rw [if_pos done, perform_pure, gotten, ← begins]
            exact ⟨after, rfl, behind ▸ holdsRest⟩
          · have more : left ≠ [] := List.length_pos_iff.mp (by omega)
            obtain ⟨final, result, ready⟩ := induction ((first :: others).reverseAux got) left after
              (behind ▸ holdsRest) (by omega) more (by omega)
            refine ⟨final, ?_, ready⟩
            rw [if_neg done, result, gotten, List.append_assoc, ← begins]

theorem header_ends (delivers : source.Delivers ahead) (state : σ) (holds : ahead [] state) :
    ∃ after, perform (header source 4 []) state = (.ok none, after) ∧ ahead [] after := by
  obtain ⟨piece, rest, after, read, split, ready, _, _⟩ :=
    delivers [] state 4 holds (by omega)
  obtain ⟨noPiece, noRest⟩ := List.append_eq_nil_iff.mp split.symm
  refine ⟨after, ?_, noRest ▸ ready⟩
  rw [header, perform_bind]
  simp only [List.length_nil, Nat.sub_zero, read, noPiece, List.isEmpty_nil, if_true, perform_pure]

theorem field_delivers (delivers : source.Delivers ahead) (patience : Nat) (bytes back : Bytes)
    (state : σ) (holds : ahead (encodeField bytes ++ back) state)
    (short : bytes.length ≤ maxField) (patient : bytes.length ≤ patience) :
    ∃ after, perform (field source patience) state = (.ok (some bytes), after) ∧
      ahead back after := by
  rw [encodeField, List.append_assoc] at holds
  obtain ⟨between, read, ready⟩ := header_delivers delivers 4 [] (lengthBytes bytes.length)
    (bytes ++ back) state holds (by simp) (by simp [lengthBytes, Bytes.ofWord]) (by simp)
  obtain ⟨after, given, final⟩ :=
    Source.exactly_enough delivers patience bytes back between ready patient
  refine ⟨after, ?_, final⟩
  rw [field, perform_bind_ok read]
  simp only [List.reverse_nil, List.nil_append, to_nat_length_bytes short]
  rw [perform_bind_ok given, perform_pure]

theorem field_ends (delivers : source.Delivers ahead) (patience : Nat) (state : σ)
    (holds : ahead [] state) :
    ∃ after, perform (field source patience) state = (.ok none, after) ∧ ahead [] after := by
  obtain ⟨after, read, final⟩ := header_ends delivers state holds
  exact ⟨after, by rw [field, perform_bind_ok read, perform_pure], final⟩

/-! All records -/

theorem length_encode (record : Record) : record.encode.length = record.size := by
  simp only [encode, encodeField, size, List.length_append, length_length_bytes]
  omega

theorem record_delivers (delivers : source.Delivers ahead) (patience : Nat) (record : Record)
    (back : Bytes) (state : σ) (holds : ahead (record.encode ++ back) state)
    (writable : record.Writable) (patient : record.size ≤ patience) :
    ∃ middle after, perform (field source patience) state = (.ok (some record.key), middle) ∧
      perform (field source patience) middle = (.ok (some record.value), after) ∧
        ahead back after := by
  unfold Record.size at patient
  rw [encode, List.append_assoc] at holds
  obtain ⟨middle, readKey, readyValue⟩ := field_delivers delivers patience record.key _
    state holds writable.key (by omega)
  obtain ⟨after, readValue, ready⟩ := field_delivers delivers patience record.value _
    middle readyValue writable.value (by omega)
  exact ⟨middle, after, readKey, readValue, ready⟩

theorem encode_all_cons (record : Record) (rest : List Record) :
    encodeAll (record :: rest) = record.encode ++ encodeAll rest := rfl

/-- Reading records goes over those that are written and goes on behind them. -/
theorem collect_passes (delivers : source.Delivers ahead) (patience steps : Nat)
    (got records : List Record) (tail : Bytes) (state : σ)
    (holds : ahead (encodeAll records ++ tail) state)
    (writable : ∀ record ∈ records, record.Writable)
    (patient : (encodeAll records).length ≤ patience) :
    ∃ after, ahead tail after ∧
      perform (collect source patience (records.length + steps) got) state =
        perform (collect source patience steps (records.reverse ++ got)) after := by
  induction records generalizing got state with
  | nil => exact ⟨state, holds, by simp⟩
  | cons record rest induction =>
      obtain ⟨recordWritable, restWritable⟩ := List.forall_mem_cons.mp writable
      rw [encode_all_cons, List.length_append, length_encode] at patient
      rw [encode_all_cons, List.append_assoc] at holds
      obtain ⟨middle, between, readKey, readValue, readyRest⟩ :=
        record_delivers delivers patience record _ state holds recordWritable (by omega)
      obtain ⟨after, ready, same⟩ :=
        induction (record :: got) between readyRest restWritable (by omega)
      refine ⟨after, ready, ?_⟩
      rw [List.length_cons, Nat.add_right_comm, collect, perform_bind_ok readKey]
      simp only
      rw [perform_bind_ok readValue]
      simp only
      rw [same, List.reverse_cons, List.append_assoc, List.singleton_append]

theorem collect_delivers (delivers : source.Delivers ahead) (patience steps : Nat)
    (got records : List Record) (state : σ) (holds : ahead (encodeAll records) state)
    (writable : ∀ record ∈ records, record.Writable)
    (patient : (encodeAll records).length ≤ patience) (enough : records.length ≤ steps) :
    ∃ after, perform (collect source patience steps got) state =
      (.ok (got.reverse ++ records), after) ∧ ahead [] after := by
  obtain ⟨more, rfl⟩ := Nat.exists_eq_add_of_le enough
  obtain ⟨between, ready, same⟩ := collect_passes delivers patience more got records [] state
    (by simpa using holds) writable patient
  have gotten : (records.reverse ++ got).reverse = got.reverse ++ records := by
    rw [List.reverse_append, List.reverse_reverse]
  rw [same]
  cases more with
  | zero => exact ⟨between, by rw [collect, perform_pure, gotten], ready⟩
  | succ more =>
      obtain ⟨after, read, final⟩ := field_ends delivers patience between ready
      exact ⟨after, by rw [collect, perform_bind_ok read, perform_pure, gotten], final⟩

theorem count_le_length (records : List Record) :
    records.length ≤ (encodeAll records).length := by
  induction records with
  | nil => simp [encodeAll]
  | cons record rest induction =>
      rw [encodeAll, List.flatMap_cons, List.length_append, length_encode, size]
      unfold encodeAll at induction
      simp only [List.length_cons]
      omega

/-- Reading from any source that delivers what was written gives the records that were written. -/
theorem read_all_delivers (delivers : source.Delivers ahead) (patience : Nat)
    (records : List Record) (state : σ) (holds : ahead (encodeAll records) state)
    (writable : ∀ record ∈ records, record.Writable)
    (patient : (encodeAll records).length ≤ patience) :
    ∃ after, perform (readAll source patience) state = (.ok records, after) ∧ ahead [] after := by
  obtain ⟨after, result, final⟩ := collect_delivers delivers patience patience [] records state
    holds writable patient (Nat.le_trans (count_le_length records) patient)
  exact ⟨after, by rw [readAll, result, List.reverse_nil, List.nil_append], final⟩

end frames

/-! What reading leaves alone -/

section keeps

variable {m : Type → Type} [Monad m] {σ : Type} [Stateful m σ] {source : Source m}
  {inv : σ → Prop} (keeps : ∀ size, Keeps inv (source size))

include keeps

theorem keeps_header (missing : Nat) (got : Bytes) : Keeps inv (header source missing got) := by
  induction missing generalizing got with
  | zero => exact keeps_pure _
  | succ missing induction =>
      unfold header
      apply keeps_bind (keeps _)
      intro piece
      split
      · split
        · exact keeps_pure _
        · exact keeps_throw _
      · dsimp only
        split
        · exact keeps_pure _
        · exact induction _

theorem keeps_field (patience : Nat) : Keeps inv (field source patience) := by
  apply keeps_bind (keeps_header keeps 4 [])
  intro length
  split
  · exact keeps_pure _
  · exact keeps_bind (Source.keeps_collect_exactly keeps patience _ []) fun _ => keeps_pure _

theorem keeps_read_all (patience : Nat) : Keeps inv (readAll source patience) := by
  have loop (steps : Nat) (got : List Record) : Keeps inv (collect source patience steps got) := by
    induction steps generalizing got with
    | zero => exact keeps_pure _
    | succ steps induction =>
        unfold collect
        apply keeps_bind (keeps_field keeps patience)
        intro key
        split
        · exact keeps_pure _
        · apply keeps_bind (keeps_field keeps patience)
          intro value
          split
          · exact keeps_throw _
          · exact induction _
  exact loop patience []

end keeps

end Record

theorem Source.perform_of_bytes (limit : Option Nat) (room : ∀ most ∈ limit, 0 < most) (size : Nat)
    (positive : 0 < size) :
    ∃ allowed, 0 < allowed ∧ allowed ≤ size ∧ ∀ rest : Bytes,
      perform (Source.ofBytes limit size) rest = (.ok (rest.take allowed), rest.drop allowed) := by
  cases limit with
  | none => exact ⟨size, positive, Nat.le_refl size, fun _ => rfl⟩
  | some most =>
      have allows := room most rfl
      exact ⟨min size most, by omega, Nat.min_le_left size most, fun _ => rfl⟩

theorem Source.of_bytes_delivers (limit : Option Nat) (room : ∀ most ∈ limit, 0 < most) :
    (Source.ofBytes limit).Delivers (fun bytes state : Bytes => state = bytes) := by
  intro bytes state size holds positive
  subst holds
  obtain ⟨allowed, moves, bounded, read⟩ := Source.perform_of_bytes limit room size positive
  refine ⟨state.take allowed, state.drop allowed, state.drop allowed, read state,
    (List.take_append_drop allowed state).symm, rfl, ?_, ?_⟩
  · rw [List.length_take]
    exact Nat.le_trans (Nat.min_le_left _ _) bounded
  · intro none
    rcases List.take_eq_nil_iff.mp none with zero | empty
    · omega
    · exact empty

/-- What was written is read back, however short the pieces in which it is handed out. -/
theorem Record.decode_encode (limit : Option Nat) (room : ∀ most ∈ limit, 0 < most)
    (records : List Record) (writable : ∀ record ∈ records, record.Writable) :
    Record.decodeAll limit (Record.encodeAll records) = .ok records := by
  obtain ⟨after, result, _⟩ := Record.read_all_delivers (Source.of_bytes_delivers limit room)
    ((Record.encodeAll records).length + 1) records (Record.encodeAll records) rfl writable
    (Nat.le_succ _)
  rw [perform_eq_run] at result
  rw [Record.decodeAll, result]

/-! Emissions -/

namespace ChunkWriter

theorem contents_append (first second : List (ChunkFile × Bytes)) (failure other : Option IoError)
    (file : ChunkFile) :
    (Emission.mk (first ++ second) failure).contents file =
      (Emission.mk first other).contents file ++ (Emission.mk second other).contents file := by
  simp only [Emission.contents, List.filter_append, List.flatMap_append]

theorem append_none {earlier later : Emission} (done : (earlier.append later).failure = none) :
    earlier.failure = none ∧ later.failure = none ∧
      ∀ file,
        (earlier.append later).contents file = earlier.contents file ++ later.contents file := by
  obtain ⟨writes, failure⟩ := earlier
  cases failure with
  | some error => exact absurd done (by simp [Emission.append])
  | none => exact ⟨rfl, done, fun file => contents_append _ _ _ _ file⟩

theorem emit_field_none {field : Bytes} (done : (emitField .data field).failure = none) :
    field.length ≤ Record.maxField ∧
      (emitField .data field).contents .data = Record.encodeField field ∧
      (emitField .data field).contents .index = [] := by
  rw [emitField] at done ⊢
  by_cases long : Record.maxField < field.length
  · rw [if_pos long] at done
    exact absurd done (by simp [Emission.fail])
  · rw [if_neg long]
    refine ⟨by omega, ?_, ?_⟩
    · simp [Emission.contents, Record.encodeField]
    · simp [Emission.contents]

theorem emit_record_none {record : Record} (done : (emitRecord .data record).failure = none) :
    record.Writable ∧ (emitRecord .data record).contents .data = record.encode ∧
      (emitRecord .data record).contents .index = [] := by
  rw [emitRecord] at done ⊢
  obtain ⟨keyDone, valueDone, contents⟩ := append_none done
  obtain ⟨keyShort, keyData, keyIndex⟩ := emit_field_none keyDone
  obtain ⟨valueShort, valueData, valueIndex⟩ := emit_field_none valueDone
  refine ⟨⟨keyShort, valueShort⟩, ?_, ?_⟩
  · rw [contents, keyData, valueData, Record.encode]
  · rw [contents, keyIndex, valueIndex, List.append_nil]

def entry (record : Record) (offset : Nat) : Bytes :=
  Md5.digest record.key ++ Bytes.ofWord (UInt32.ofNat offset)

theorem emit_binary_cons {offset : Nat} {record : Record} {rest : List Record}
    (done : (emitBinary offset (record :: rest)).failure = none) :
    record.Writable ∧ (emitBinary (offset + record.size) rest).failure = none ∧
      (emitBinary offset (record :: rest)).contents .data =
        record.encode ++ (emitBinary (offset + record.size) rest).contents .data ∧
      (emitBinary offset (record :: rest)).contents .index =
        entry record offset ++ (emitBinary (offset + record.size) rest).contents .index := by
  rw [emitBinary] at done ⊢
  by_cases large : UInt32.size ≤ offset
  · rw [if_pos large] at done
    exact absurd done (by simp [Emission.fail])
  · rw [if_neg large] at done ⊢
    obtain ⟨firstDone, restDone, contents⟩ := append_none done
    obtain ⟨_, recordDone, firstContents⟩ := append_none firstDone
    obtain ⟨writable, data, index⟩ := emit_record_none recordDone
    refine ⟨writable, restDone, ?_, ?_⟩
    · rw [contents, firstContents, data]
      rfl
    · rw [contents, firstContents, index, List.append_nil]
      simp [Emission.contents, entry]

theorem emit_binary_none {records : List Record} {offset : Nat}
    (done : (emitBinary offset records).failure = none) :
    (∀ record ∈ records, record.Writable) ∧
      (emitBinary offset records).contents .data = Record.encodeAll records := by
  induction records generalizing offset with
  | nil => exact ⟨by simp, by simp [emitBinary, Emission.complete, Emission.contents,
      Record.encodeAll]⟩
  | cons record rest induction =>
      obtain ⟨writable, restDone, data, _⟩ := emit_binary_cons done
      obtain ⟨restWritable, restData⟩ := induction restDone
      refine ⟨List.forall_mem_cons.mpr ⟨writable, restWritable⟩, ?_⟩
      rw [data, restData, Record.encode_all_cons]

end ChunkWriter

end ChunkStore
