import ChunkStore.Proofs.Records
import Mathlib.Data.List.Basic

/-!
Reading is exact: a byte string is read as some records only when it is what writing them gives, and
every other byte string is refused at its end. So every byte string is the written form of some
records and then a tail, and it is the tail, empty or cut short, that decides.
-/

namespace ChunkStore

set_option autoImplicit false

open Stateful

/-! Words -/

theorem Bytes.of_word_to_nat {bytes : Bytes} (four : bytes.length = 4) :
    Bytes.ofWord (UInt32.ofNat (Bytes.toNat bytes)) = bytes := by
  match bytes, four with
  | [first, second, third, fourth], _ =>
      have one := first.toNat_lt
      have two := second.toNat_lt
      have three := third.toNat_lt
      have last := fourth.toNat_lt
      simp only [Bytes.toNat, Bytes.ofWord, List.foldl_cons, List.foldl_nil, List.cons.injEq,
        and_true, ← UInt8.toNat_inj, UInt32.toNat_toUInt8, UInt32.toNat_shiftRight,
        Nat.shiftRight_eq_div_pow, UInt32.toNat_ofNat']
      simp only [UInt32.reduceToNat, Nat.reduceMod, Nat.reducePow]
      omega

theorem Bytes.to_nat_of_four {bytes : Bytes} (four : bytes.length = 4) :
    Bytes.toNat bytes ≤ Record.maxField := by
  match bytes, four with
  | [first, second, third, fourth], _ =>
      have one := first.toNat_lt
      have two := second.toNat_lt
      have three := third.toNat_lt
      have last := fourth.toNat_lt
      simp only [Bytes.toNat, List.foldl_cons, List.foldl_nil, Record.maxField, UInt32.size]
      omega

namespace Record

/-! Cutting a field off -/

/-- Fields are told apart by their written forms, whatever follows. -/
theorem encode_field_cancel {field other rest left : Bytes} (short : field.length ≤ maxField)
    (otherShort : other.length ≤ maxField)
    (same : encodeField field ++ rest = encodeField other ++ left) :
    field = other ∧ rest = left := by
  rw [encodeField, encodeField, List.append_assoc, List.append_assoc] at same
  obtain ⟨lengths, behind⟩ := List.append_inj same (by simp)
  have length := congrArg Bytes.toNat lengths
  rw [to_nat_length_bytes short, to_nat_length_bytes otherShort] at length
  exact List.append_inj behind length

/-- Bytes that are cut short within a field, and the error that reading them gives. -/
inductive CutShort : Bytes → IoError → Prop
  | header {bytes : Bytes} (present : bytes ≠ []) (short : bytes.length < 4) :
      CutShort bytes truncatedHeader
  | body {size : Nat} {bytes : Bytes} (fits : size ≤ maxField) (short : bytes.length < size) :
      CutShort (lengthBytes size ++ bytes) (.unexpectedEnd "failed to fill whole buffer")

theorem field_cases (bytes : Bytes) :
    bytes = [] ∨
      (∃ field rest, field.length ≤ maxField ∧ bytes = encodeField field ++ rest) ∨
        ∃ error, CutShort bytes error := by
  by_cases none : bytes = []
  · exact .inl none
  right
  by_cases few : bytes.length < 4
  · exact .inr ⟨_, .header none few⟩
  have four : (bytes.take 4).length = 4 := by
    rw [List.length_take]
    omega
  have fits := Bytes.to_nat_of_four four
  have split : bytes = lengthBytes (Bytes.toNat (bytes.take 4)) ++ bytes.drop 4 := by
    rw [lengthBytes, Bytes.of_word_to_nat four, List.take_append_drop]
  generalize Bytes.toNat (bytes.take 4) = size at fits split
  generalize bytes.drop 4 = behind at split
  by_cases short : behind.length < size
  · exact .inr ⟨_, by rw [split]; exact .body fits short⟩
  · left
    have length : (behind.take size).length = size := by
      rw [List.length_take]
      omega
    refine ⟨behind.take size, behind.drop size, by omega, ?_⟩
    rw [encodeField, length, List.append_assoc, List.take_append_drop]
    exact split

/-! Tails -/

/-- Bytes that neither end nor begin with a record, and the error that reading them gives. -/
inductive Broken : Bytes → IoError → Prop
  | key {bytes : Bytes} {error : IoError} (cut : CutShort bytes error) : Broken bytes error
  | absent {key : Bytes} (short : key.length ≤ maxField) : Broken (encodeField key) withoutValue
  | value {key bytes : Bytes} {error : IoError} (short : key.length ≤ maxField)
      (cut : CutShort bytes error) : Broken (encodeField key ++ bytes) error

theorem CutShort.kind {bytes : Bytes} {error : IoError} (cut : CutShort bytes error) :
    error.kind = .unexpectedEnd := by
  cases cut <;> rfl

theorem Broken.kind {bytes : Bytes} {error : IoError} (broken : Broken bytes error) :
    error.kind = .unexpectedEnd := by
  cases broken with
  | key cut => exact cut.kind
  | absent short => rfl
  | value short cut => exact cut.kind

/-- Every byte string is the written form of some records and then nothing or a broken tail. -/
theorem records_and_tail (bytes : Bytes) :
    ∃ records tail, (∀ record ∈ records, record.Writable) ∧ bytes = encodeAll records ++ tail ∧
      (tail = [] ∨ ∃ error, Broken tail error) := by
  -- Each record takes bytes, so the induction is on how many there are.
  induction length : bytes.length using Nat.strongRecOn generalizing bytes with
  | _ size induction =>
      have whole (broken : bytes = [] ∨ ∃ error, Broken bytes error) :
          ∃ records tail, (∀ record ∈ records, record.Writable) ∧
            bytes = encodeAll records ++ tail ∧ (tail = [] ∨ ∃ error, Broken tail error) :=
        ⟨[], bytes, by simp, rfl, broken⟩
      obtain none | ⟨key, behind, keyShort, split⟩ | ⟨error, cut⟩ := field_cases bytes
      · exact whole (.inl none)
      · obtain none | ⟨value, rest, valueShort, splitValue⟩ | ⟨error, cut⟩ := field_cases behind
        · rw [none, List.append_nil] at split
          exact whole (.inr ⟨_, by rw [split]; exact .absent keyShort⟩)
        · have encoded : bytes = (Record.mk key value).encode ++ rest := by
            rw [split, splitValue, encode, List.append_assoc]
          have shorter : rest.length < size := by
            rw [← length, encoded, List.length_append, length_encode]
            unfold Record.size
            omega
          obtain ⟨records, tail, writable, restSplit, broken⟩ := induction _ shorter rest rfl
          refine ⟨⟨key, value⟩ :: records, tail,
            List.forall_mem_cons.mpr ⟨⟨keyShort, valueShort⟩, writable⟩, ?_, broken⟩
          rw [encode_all_cons, List.append_assoc, ← restSplit, encoded]
        · exact whole (.inr ⟨_, by rw [split]; exact .value keyShort cut⟩)
      · exact whole (.inr ⟨_, .key cut⟩)

theorem prefix_of_encode_prefix {records written : List Record}
    (writable : ∀ record ∈ records, record.Writable)
    (writtenWritable : ∀ record ∈ written, record.Writable)
    (begins : encodeAll records <+: encodeAll written) : records <+: written := by
  induction records generalizing written with
  | nil => exact List.nil_prefix
  | cons record rest induction =>
      obtain ⟨left, split⟩ := begins
      obtain ⟨recordWritable, restWritable⟩ := List.forall_mem_cons.mp writable
      cases written with
      | nil =>
          have length := congrArg List.length split
          rw [encode_all_cons, List.length_append, List.length_append, length_encode] at length
          unfold Record.size at length
          simp only [encodeAll, List.flatMap_nil, List.length_nil] at length
          omega
      | cons other others =>
          obtain ⟨otherWritable, othersWritable⟩ := List.forall_mem_cons.mp writtenWritable
          rw [encode_all_cons, encode_all_cons, encode, encode] at split
          simp only [List.append_assoc] at split
          obtain ⟨key, behindKey⟩ := encode_field_cancel recordWritable.key otherWritable.key split
          obtain ⟨value, behind⟩ :=
            encode_field_cancel recordWritable.value otherWritable.value behindKey
          have same : record = other := by
            cases record
            cases other
            exact Record.mk.injEq .. ▸ ⟨key, value⟩
          exact List.cons_prefix_cons.mpr
            ⟨same, induction restWritable othersWritable ⟨left, behind⟩⟩

end Record

/-! Reading what is cut short -/

section frames

variable {m : Type → Type} [Monad m] {σ : Type} [Stateful m σ] {source : Source m}
  {ahead : Bytes → σ → Prop}

theorem Source.exactly_short (delivers : source.Delivers ahead) (patience size : Nat)
    (got bytes : Bytes) (state : σ) (holds : ahead bytes state) (short : bytes.length < size) :
    ∃ after, perform (source.collectExactly patience size got) state =
      (.error (.unexpectedEnd "failed to fill whole buffer"), after) := by
  induction patience generalizing size got bytes state with
  | zero =>
      cases size with
      | zero => exact absurd short (by simp)
      | succ size => exact ⟨state, by simp [collectExactly]⟩
  | succ patience induction =>
      cases size with
      | zero => exact absurd short (by simp)
      | succ size =>
          obtain ⟨piece, rest, after, read, split, ready, fits, _⟩ :=
            delivers bytes state (size + 1) holds (by omega)
          rw [collectExactly, perform_bind, perform_outcome, read]
          · cases piece with
            | nil => exact ⟨after, by simp⟩
            | cons first others =>
                rw [split, List.length_append] at short
                exact induction _ _ rest after ready (by omega)
          · simp

namespace Record

theorem header_short (delivers : source.Delivers ahead) (missing : Nat) (got bytes : Bytes)
    (state : σ) (holds : ahead bytes state) (few : got.length + bytes.length < 4)
    (begun : got ≠ [] ∨ bytes ≠ []) (enough : 4 ≤ missing + got.length) :
    ∃ after, perform (header source missing got) state = (.error truncatedHeader, after) := by
  induction missing generalizing got bytes state with
  | zero => omega
  | succ missing induction =>
      obtain ⟨piece, rest, after, read, split, ready, _, ends⟩ :=
        delivers bytes state (4 - got.length) holds (by omega)
      rw [header, perform_bind, read]
      cases piece with
      | nil =>
          have more : got ≠ [] := begun.resolve_right fun present => present (ends rfl)
          exact ⟨after, by simp [more]⟩
      | cons first others =>
          have length := Source.length_reverse_aux (first :: others) got
          rw [split, List.length_append] at few
          rw [List.length_cons] at few length
          simp only
          rw [if_neg (by omega)]
          refine induction _ rest after ready (by omega) (.inl ?_) (by omega)
          rw [← List.length_pos_iff]
          omega

theorem field_short (delivers : source.Delivers ahead) (patience : Nat) {bytes : Bytes}
    {error : IoError} (cut : CutShort bytes error) (state : σ) (holds : ahead bytes state) :
    ∃ after, perform (field source patience) state = (.error error, after) := by
  cases cut with
  | header present short =>
      obtain ⟨after, read⟩ := header_short delivers 4 [] bytes state holds (by simpa using short)
        (.inr present) (by simp)
      exact ⟨after, by rw [field, perform_bind_error read]⟩
  | @body size bytes fits short =>
      obtain ⟨between, read, ready⟩ := header_delivers delivers 4 [] (lengthBytes size) bytes state
        holds (by simp) (by simp [lengthBytes, Bytes.ofWord]) (by simp)
      obtain ⟨after, given⟩ :=
        Source.exactly_short delivers patience size [] bytes between ready short
      refine ⟨after, ?_⟩
      rw [field, perform_bind_ok read]
      simp only [List.reverse_nil, List.nil_append, to_nat_length_bytes fits]
      rw [Source.exactly, perform_bind_error given]

theorem collect_broken (delivers : source.Delivers ahead) (patience steps : Nat)
    (got : List Record) {tail : Bytes} {error : IoError} (broken : Broken tail error) (state : σ)
    (holds : ahead tail state) (patient : tail.length ≤ patience) :
    ∃ after, perform (collect source patience (steps + 1) got) state = (.error error, after) := by
  cases broken with
  | key cut =>
      obtain ⟨after, read⟩ := field_short delivers patience cut state holds
      exact ⟨after, by rw [collect, perform_bind_error read]⟩
  | @absent key short =>
      rw [encodeField, List.length_append] at patient
      obtain ⟨middle, readKey, ready⟩ := field_delivers delivers patience key [] state
        (by simpa using holds) short (by omega)
      obtain ⟨after, readValue, _⟩ := field_ends delivers patience middle ready
      refine ⟨after, ?_⟩
      rw [collect, perform_bind_ok readKey]
      simp only
      rw [perform_bind_ok readValue, perform_throw]
  | @value key bytes error short cut =>
      rw [encodeField, List.length_append, List.length_append] at patient
      obtain ⟨middle, readKey, ready⟩ := field_delivers delivers patience key bytes state holds
        short (by omega)
      obtain ⟨after, readValue⟩ := field_short delivers patience cut middle ready
      refine ⟨after, ?_⟩
      rw [collect, perform_bind_ok readKey]
      simp only
      rw [perform_bind_error readValue]

theorem Broken.positive {tail : Bytes} {error : IoError} (broken : Broken tail error) :
    0 < tail.length := by
  cases broken with
  | key cut =>
      cases cut with
      | header present short => exact List.length_pos_iff.mpr present
      | body fits short => simp [lengthBytes, Bytes.ofWord]
  | absent short => simp [encodeField, lengthBytes, Bytes.ofWord]
  | value short cut => simp [encodeField, lengthBytes, Bytes.ofWord]

/-- Behind some records a broken tail gives its error. -/
theorem read_all_broken (delivers : source.Delivers ahead) (patience : Nat)
    (records : List Record) (writable : ∀ record ∈ records, record.Writable) {tail : Bytes}
    {error : IoError} (broken : Broken tail error) (state : σ)
    (holds : ahead (encodeAll records ++ tail) state)
    (patient : (encodeAll records ++ tail).length ≤ patience) :
    ∃ after, perform (readAll source patience) state = (.error error, after) := by
  rw [List.length_append] at patient
  have counted := count_le_length records
  have positive := broken.positive
  obtain ⟨steps, many⟩ : ∃ steps, patience = records.length + (steps + 1) :=
    ⟨patience - records.length - 1, by omega⟩
  obtain ⟨between, ready, same⟩ := collect_passes delivers patience (steps + 1) [] records tail
    state holds writable (by omega)
  obtain ⟨after, refused⟩ := collect_broken delivers patience steps (records.reverse ++ []) broken
    between ready (by omega)
  exact ⟨after, by rw [readAll, ← refused, ← same, ← many]⟩

/-- With patience for all the bytes ahead, reading gives the records whose written form they are or
finds that they end too soon. -/
theorem read_all_cases (delivers : source.Delivers ahead) (bytes : Bytes) (state : σ)
    (holds : ahead bytes state) :
    ∃ outcome : Except IoError (List Record),
      (∀ patience, bytes.length ≤ patience →
        (perform (readAll source patience) state).1 = outcome) ∧
      ((∃ records, outcome = .ok records ∧ (∀ record ∈ records, record.Writable) ∧
          encodeAll records = bytes) ∨
        ∃ error, outcome = .error error ∧ error.kind = .unexpectedEnd) := by
  obtain ⟨records, tail, writable, split, none | ⟨error, broken⟩⟩ := records_and_tail bytes
  · rw [none, List.append_nil] at split
    refine ⟨.ok records, fun patience patient => ?_, .inl ⟨records, rfl, writable, split.symm⟩⟩
    obtain ⟨after, read, _⟩ := read_all_delivers delivers patience records state (split ▸ holds)
      writable (split ▸ patient)
    rw [read]
  · refine ⟨.error error, fun patience patient => ?_, .inr ⟨error, rfl, broken.kind⟩⟩
    obtain ⟨after, read⟩ := read_all_broken delivers patience records writable broken state
      (split ▸ holds) (split ▸ patient)
    rw [read]

end Record

end frames

/-! Both directions -/

theorem ChunkWriter.contents_of_writable {record : Record} (writable : record.Writable) :
    (emitRecord .data record).contents .data = record.encode := by
  have field (bytes : Bytes) (short : bytes.length ≤ Record.maxField) :
      emitField .data bytes =
        ⟨[(.data, Record.lengthBytes bytes.length), (.data, bytes)], none⟩ :=
    if_neg (by omega)
  rw [emitRecord, field _ writable.key, field _ writable.value]
  simp [Emission.append, Emission.contents, Record.encode, Record.encodeField]

namespace Record

/-- Bytes are what is written of some records, one after the other; a field of 4 GiB has no written
form. -/
def Encodes (records : List Record) (bytes : Bytes) : Prop :=
  (∀ record ∈ records, record.key.length < UInt32.size ∧ record.value.length < UInt32.size) ∧
    records.flatMap (fun record => (ChunkWriter.emitRecord .data record).contents .data) = bytes

theorem le_max_field_iff (length : Nat) : length ≤ maxField ↔ length < UInt32.size := by
  unfold maxField UInt32.size
  omega

theorem writable_iff (record : Record) :
    record.Writable ↔ record.key.length < UInt32.size ∧ record.value.length < UInt32.size := by
  rw [← le_max_field_iff, ← le_max_field_iff]
  exact ⟨fun ⟨key, value⟩ => ⟨key, value⟩, fun ⟨key, value⟩ => ⟨key, value⟩⟩

theorem encodes_iff (records : List Record) (bytes : Bytes) :
    Encodes records bytes ↔ (∀ record ∈ records, record.Writable) ∧ encodeAll records = bytes := by
  simp only [Encodes, ← writable_iff]
  refine and_congr_right fun writable => ?_
  rw [encodeAll, List.flatMap_congr fun record member =>
    ChunkWriter.contents_of_writable (writable record member)]

/-- Reading and writing records are inverse to each other. Whatever pieces a source hands its bytes
out in, reading them ends; it gives some records exactly when the bytes are what is written of them,
by themselves or as the data of a chunk, and else reports that the bytes end too soon; and from a
beginning of what was written it gives no others than the first records that were written. -/
theorem reading_inverts_writing {m : Type → Type} [Monad m] {σ : Type} [Stateful m σ]
    {source : Source m} {ahead : Bytes → σ → Prop} (delivers : source.Delivers ahead)
    (bytes : Bytes) (state : σ) (holds : ahead bytes state) :
    ∃ outcome : Except IoError (List Record),
      (∀ patience, bytes.length ≤ patience →
        (perform (readAll source patience) state).1 = outcome) ∧
      (∀ records, outcome = .ok records ↔ Encodes records bytes) ∧
      (∀ records, (ChunkWriter.binary.emit records).failure = none →
        (ChunkWriter.binary.emit records).contents .data = bytes → outcome = .ok records) ∧
      (∀ error, outcome = .error error →
        error.kind = .unexpectedEnd ∧ ∀ records, ¬ Encodes records bytes) ∧
      ∀ written whole records, Encodes written whole → bytes <+: whole →
        outcome = .ok records → records <+: written := by
  obtain ⟨outcome, reads, shape⟩ := read_all_cases delivers bytes state holds
  have encoded (records : List Record) (writable : ∀ record ∈ records, record.Writable)
      (same : encodeAll records = bytes) : outcome = .ok records := by
    obtain ⟨after, read, _⟩ := read_all_delivers delivers bytes.length records state
      (same ▸ holds) writable (by rw [same])
    rw [← reads _ (Nat.le_refl _), read]
  have decoded (records : List Record) (read : outcome = .ok records) :
      (∀ record ∈ records, record.Writable) ∧ encodeAll records = bytes := by
    obtain ⟨found, given, writable, same⟩ | ⟨error, refused, _⟩ := shape
    · rw [given, Except.ok.injEq] at read
      exact read ▸ ⟨writable, same⟩
    · exact absurd (refused.symm.trans read) (by simp)
  refine ⟨outcome, reads, fun records => ?_, fun records done data => ?_,
    fun error refused => ⟨?_, fun records encodes => ?_⟩,
    fun written whole records encodes begins read => ?_⟩
  · rw [encodes_iff]
    exact ⟨decoded records, fun encodes => encoded records encodes.1 encodes.2⟩
  · obtain ⟨writable, written⟩ := ChunkWriter.emit_binary_none done
    exact encoded records writable (written.symm.trans data)
  · obtain ⟨records, given, _⟩ | ⟨found, given, kind⟩ := shape
    · exact absurd (refused.symm.trans given) (by simp)
    · rw [given, Except.error.injEq] at refused
      exact refused ▸ kind
  · rw [encodes_iff] at encodes
    exact absurd (refused.symm.trans (encoded records encodes.1 encodes.2)) (by simp)
  · rw [encodes_iff] at encodes
    obtain ⟨writable, same⟩ := decoded records read
    exact prefix_of_encode_prefix writable encodes.1 (by rwa [same, encodes.2])

def sampleRecords : List Record := [⟨[107], []⟩, ⟨[], [118, 119]⟩]

/-- Two records with an empty field each come back from single bytes. -/
theorem sample_read_back :
    Encodes sampleRecords (encodeAll sampleRecords) ∧
      (perform (readAll (Source.ofBytes (some 1)) 19) (encodeAll sampleRecords)).1 =
        .ok sampleRecords := by
  have encodes : Encodes sampleRecords (encodeAll sampleRecords) := ⟨by decide, by decide⟩
  obtain ⟨outcome, reads, exactly, _⟩ :=
    reading_inverts_writing (Source.of_bytes_delivers (some 1) (by simp)) (encodeAll sampleRecords)
      (encodeAll sampleRecords) rfl
  exact ⟨encodes, (reads 19 (by decide)).trans ((exactly sampleRecords).mpr encodes)⟩

example : decodeAll none ((encodeAll sampleRecords).take 18) =
    .error (.unexpectedEnd "failed to fill whole buffer") := by decide

end Record

end ChunkStore
