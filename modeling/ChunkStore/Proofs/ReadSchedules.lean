import ChunkStore.Proofs.RecordReading
import ChunkStore.Proofs.Streaming

/-!
Records from readers that are interrupted. How a reader cuts its bytes into pieces never matters,
and an interruption within the body of a field is read over. One that comes while the bytes of a
length are read is not: it ends the reading, where the same bytes at once would have given records.
-/

namespace ChunkStore

set_option autoImplicit false

open Stateful

/-! Schedules -/

namespace Answer

/-- What is left of a schedule when some bytes of its first piece were taken: the others of them
come first. -/
def leave (bytes : Bytes) (size : Nat) (later : List Answer) : List Answer :=
  if bytes.length ≤ size then later else .piece (bytes.drop size) :: later

theorem delivered_leave (bytes : Bytes) (size : Nat) (later : List Answer) :
    delivered (.piece bytes :: later) = bytes.take size ++ delivered (leave bytes size later) := by
  rw [delivered_cons, Answer.bytes, leave]
  by_cases all : bytes.length ≤ size
  · rw [if_pos all, List.take_of_length_le all]
  · rw [if_neg all, delivered_cons, Answer.bytes, ← List.append_assoc, List.take_append_drop]

/-- As many reads as this take a schedule to its end: each of them takes an interruption or a byte
at least. -/
def weight : List Answer → Nat
  | [] => 0
  | .interrupted _ :: later => weight later + 1
  | .piece bytes :: later => weight later + bytes.length

theorem weight_leave (bytes : Bytes) (size : Nat) (later : List Answer) :
    weight (leave bytes size later) + (bytes.take size).length =
      weight (.piece bytes :: later) := by
  rw [leave, weight, List.length_take]
  by_cases all : bytes.length ≤ size
  · rw [if_pos all, Nat.min_eq_right all]
  · rw [if_neg all, weight, List.length_drop]
    omega

end Answer

namespace Source

variable {m : Type → Type} [Monad m] {σ : Type} [Stateful m σ]

/-- Reads follow a schedule, whatever they ask for: a piece that is longer than the read is cut, and
after the schedule every read finds the end. A piece has at least one byte. -/
structure Follows (source : Source m) (ahead : List Answer → σ → Prop) : Prop where
  ended : ∀ state, ahead [] state → ∀ size, 0 < size →
    ∃ after, perform (source size) state = (.ok [], after) ∧ ahead [] after
  interrupted : ∀ text later state, ahead (.interrupted text :: later) state → ∀ size, 0 < size →
    ∃ after, perform (source size) state = (.error ⟨.interrupted, text⟩, after) ∧ ahead later after
  piece : ∀ bytes later state, ahead (.piece bytes :: later) state → bytes ≠ [] ∧
    ∀ size, 0 < size → ∃ after, perform (source size) state = (.ok (bytes.take size), after) ∧
      ahead (Answer.leave bytes size later) after

end Source

namespace Record

/-! Where a reader is -/

/-- What the next byte is for: a length, of which some bytes are there, or the body of a field, of
which some are missing. -/
inductive Stage
  | length (got : Bytes)
  | body (missing : Nat)
deriving DecidableEq, Repr

namespace Stage

/-- The stage before the bytes of a body. Behind a body that is empty stands the next length. -/
def beforeBody : Nat → Stage
  | 0 => length []
  | missing + 1 => body (missing + 1)

def next : Stage → UInt8 → Stage
  | length got, byte =>
      if got.length = 3 then beforeBody (Bytes.toNat (got ++ [byte])) else length (got ++ [byte])
  | body missing, _ => beforeBody (missing - 1)

def advance (stage : Stage) (bytes : Bytes) : Stage := bytes.foldl next stage

theorem advance_append (stage : Stage) (first second : Bytes) :
    stage.advance (first ++ second) = (stage.advance first).advance second :=
  List.foldl_append

theorem advance_body {missing : Nat} {bytes : Bytes} (within : bytes.length ≤ missing) :
    (beforeBody missing).advance bytes = beforeBody (missing - bytes.length) := by
  induction bytes generalizing missing with
  | nil => rfl
  | cons byte rest induction =>
      cases missing with
      | zero => exact absurd within (by simp)
      | succ missing =>
          rw [List.length_cons] at within
          change (beforeBody missing).advance rest = _
          rw [induction (Nat.le_of_succ_le_succ within), List.length_cons, Nat.add_sub_add_right]

theorem advance_length {got bytes : Bytes} (few : got.length + bytes.length < 4) :
    (length got).advance bytes = length (got ++ bytes) := by
  induction bytes generalizing got with
  | nil => rw [List.append_nil]; rfl
  | cons byte rest induction =>
      rw [List.length_cons] at few
      have stays : (length got).next byte = length (got ++ [byte]) := if_neg (by omega)
      change ((length got).next byte).advance rest = _
      rw [stays, induction (by simp; omega), List.append_assoc, List.singleton_append]

theorem advance_whole_length {got bytes : Bytes} (whole : got.length + bytes.length = 4)
    (present : bytes ≠ []) :
    (length got).advance bytes = beforeBody (Bytes.toNat (got ++ bytes)) := by
  have shape := List.dropLast_append_getLast present
  have shorter : got.length + bytes.dropLast.length = 3 := by
    have positive := List.length_pos_iff.mpr present
    rw [List.length_dropLast]
    omega
  have last : (length (got ++ bytes.dropLast)).next (bytes.getLast present) =
      beforeBody (Bytes.toNat (got ++ bytes.dropLast ++ [bytes.getLast present])) :=
    if_pos (by rw [List.length_append, shorter])
  rw [← shape, advance_append, advance_length (by omega), ← List.append_assoc]
  exact last

/-- The first interruption of a schedule that is met where a length is read. -/
def harm : Stage → List Answer → Option String
  | _, [] => none
  | length _, .interrupted text :: _ => some text
  | body missing, .interrupted _ :: later => harm (body missing) later
  | stage, .piece bytes :: later => harm (stage.advance bytes) later

theorem harm_piece (stage : Stage) (bytes : Bytes) (later : List Answer) :
    harm stage (.piece bytes :: later) = harm (stage.advance bytes) later := by
  cases stage <;> rfl

theorem harm_nil (stage : Stage) : harm stage [] = none := by
  cases stage <;> rfl

theorem harm_leave (stage : Stage) (bytes : Bytes) (size : Nat) (later : List Answer) :
    harm (stage.advance (bytes.take size)) (Answer.leave bytes size later) =
      harm stage (.piece bytes :: later) := by
  rw [Answer.leave, harm_piece]
  by_cases all : bytes.length ≤ size
  · rw [if_pos all, List.take_of_length_le all]
  · rw [if_neg all, harm_piece, ← advance_append, List.take_append_drop]

theorem of_weightless {answers : List Answer} (weightless : Answer.weight answers = 0) :
    Answer.delivered answers = [] ∧ ∀ stage, harm stage answers = none := by
  induction answers with
  | nil => exact ⟨rfl, harm_nil⟩
  | cons answer later induction =>
      cases answer with
      | interrupted text => exact absurd weightless (by simp [Answer.weight])
      | piece bytes =>
          rw [Answer.weight] at weightless
          have empty : bytes = [] := List.length_eq_zero_iff.mp (by omega)
          rcases induction (by omega) with ⟨nothing, harmless⟩
          rw [Answer.delivered_cons, nothing, Answer.bytes, empty]
          exact ⟨rfl, fun stage => harm_piece stage [] later ▸ harmless _⟩

end Stage

/-! One field -/

section fields

variable {m : Type → Type} [Monad m] {σ : Type} [Stateful m σ] {source : Source m}
  {ahead : List Answer → σ → Prop}

inductive OneRead (ahead : List Answer → σ → Prop) (answers : List Answer) (size : Nat) :
    Except IoError Bytes × σ → Prop
  | ended {after : σ} (exhausted : answers = []) : OneRead ahead answers size (.ok [], after)
  | interrupted {text : String} {later : List Answer} {after : σ}
      (first : answers = .interrupted text :: later) (ready : ahead later after) :
      OneRead ahead answers size (.error ⟨.interrupted, text⟩, after)
  | piece {first : UInt8} {others : Bytes} {later : List Answer} {after : σ}
      (fits : (first :: others).length ≤ size)
      (split : Answer.delivered answers = first :: others ++ Answer.delivered later)
      (lighter : Answer.weight later + (first :: others).length = Answer.weight answers)
      (harm : ∀ stage, Stage.harm stage answers =
        Stage.harm (stage.advance (first :: others)) later)
      (ready : ahead later after) : OneRead ahead answers size (.ok (first :: others), after)

theorem source_follows (follows : source.Follows ahead) {answers : List Answer} {state : σ}
    (holds : ahead answers state) {size : Nat} (asks : 0 < size) :
    OneRead ahead answers size (perform (source size) state) := by
  cases answers with
  | nil =>
      rcases follows.ended state holds size asks with ⟨after, read, _⟩
      rw [read]
      exact .ended rfl
  | cons answer later =>
      cases answer with
      | interrupted text =>
          rcases follows.interrupted text later state holds size asks with ⟨after, read, ready⟩
          rw [read]
          exact .interrupted rfl ready
      | piece bytes =>
          rcases follows.piece bytes later state holds with ⟨present, reads⟩
          rcases reads size asks with ⟨after, read, ready⟩
          have fits := List.length_take_le size bytes
          have split := Answer.delivered_leave bytes size later
          have lighter := Answer.weight_leave bytes size later
          have harm (stage : Stage) := (Stage.harm_leave stage bytes size later).symm
          have taken : bytes.take size ≠ [] := by
            rw [Ne, List.take_eq_nil_iff, not_or]
            exact ⟨Nat.pos_iff_ne_zero.mp asks, present⟩
          rcases List.exists_cons_of_ne_nil taken with ⟨first, others, shape⟩
          rw [shape] at read fits split lighter harm
          rw [read]
          exact .piece fits split lighter harm ready

/-- How reading the rest of a length ends: it is harmed, or finds the end before or within the
length, or has the four bytes, and then the stage is that before the body. -/
inductive LengthRead (ahead : List Answer → σ → Prop) (got : Bytes) (answers : List Answer) :
    Except IoError (Option Bytes) × σ → Prop
  | harmed {text : String} {after : σ} (harm : Stage.harm (.length got) answers = some text) :
      LengthRead ahead got answers (.error ⟨.interrupted, text⟩, after)
  | ended {after : σ} (nothing : got ++ Answer.delivered answers = [])
      (harmless : Stage.harm (.length got) answers = none) :
      LengthRead ahead got answers (.ok none, after)
  | short {after : σ} (begun : got ++ Answer.delivered answers ≠ [])
      (few : (got ++ Answer.delivered answers).length < 4)
      (harmless : Stage.harm (.length got) answers = none) :
      LengthRead ahead got answers (.error truncatedHeader, after)
  | whole {length : Bytes} {later : List Answer} {after : σ} (four : length.length = 4)
      (split : got ++ Answer.delivered answers = length ++ Answer.delivered later)
      (same : Stage.harm (.length got) answers =
        Stage.harm (.beforeBody (Bytes.toNat length)) later)
      (lighter : Answer.weight later < Answer.weight answers) (ready : ahead later after) :
      LengthRead ahead got answers (.ok (some length), after)

/-- Bytes of the length may stand among those that are there or at the front of the schedule. -/
theorem LengthRead.congr {got more : Bytes} {answers later : List Answer}
    {result : Except IoError (Option Bytes) × σ}
    (bytes : got ++ Answer.delivered answers = more ++ Answer.delivered later)
    (harm : Stage.harm (.length got) answers = Stage.harm (.length more) later)
    (lighter : Answer.weight later ≤ Answer.weight answers)
    (read : LengthRead ahead more later result) : LengthRead ahead got answers result := by
  cases read with
  | harmed harmed => exact .harmed (harm.trans harmed)
  | ended nothing harmless => exact .ended (bytes.trans nothing) (harm.trans harmless)
  | short begun few harmless =>
      exact .short (bytes ▸ begun) (bytes ▸ few) (harm.trans harmless)
  | whole four split same lighterStill ready =>
      exact .whole four (bytes.trans split) (harm.trans same) (by omega) ready

theorem header_follows (follows : source.Follows ahead) (missing : Nat) (got : Bytes)
    (answers : List Answer) (state : σ) (holds : ahead answers state) (few : got.length < 4)
    (enough : 4 ≤ missing + got.length) :
    LengthRead ahead got.reverse answers (perform (header source missing got) state) := by
  -- A read that is not the last brings a byte, so there are reads enough for all four.
  induction missing generalizing got answers state with
  | zero => omega
  | succ missing induction =>
      have asks : 0 < 4 - got.length := by omega
      have read := source_follows follows holds asks
      rw [header, perform_bind]
      generalize perform (source (4 - got.length)) state = result at read
      cases read with
      | ended exhausted =>
          have same : got.reverse ++ Answer.delivered [] = got.reverse := List.append_nil _
          rw [exhausted]
          by_cases begun : got = []
          · subst begun
            simp only [List.isEmpty_nil, if_true, perform_pure]
            exact .ended same (Stage.harm_nil _)
          · simp only [List.isEmpty_iff, begun, if_false, perform_throw]
            apply LengthRead.short _ _ (Stage.harm_nil _)
            · rw [same, Ne, List.reverse_eq_nil_iff]
              exact begun
            · rw [same, List.length_reverse]
              exact few
      | interrupted first ready =>
          rw [first]
          exact .harmed rfl
      | @piece first others later after fits split lighter harm ready =>
          have more := Source.reverse_reverse_aux (first :: others) got
          have length := Source.length_reverse_aux (first :: others) got
          have positive : 0 < (first :: others).length := Nat.succ_pos _
          have whole : got.reverse ++ Answer.delivered answers =
              got.reverse ++ (first :: others) ++ Answer.delivered later := by
            rw [split, List.append_assoc]
          simp only
          by_cases all : 4 ≤ ((first :: others).reverseAux got).length
          · rw [if_pos all, perform_pure, more]
            have four : got.reverse.length + (first :: others).length = 4 := by
              rw [List.length_reverse]
              omega
            have same := harm (.length got.reverse)
            rw [Stage.advance_whole_length four (List.cons_ne_nil _ _)] at same
            exact .whole (by rw [List.length_append, four]) whole same (by omega) ready
          · rw [if_neg all]
            have same := harm (.length got.reverse)
            rw [Stage.advance_length (by rw [List.length_reverse]; omega), ← more] at same
            rw [← more] at whole
            exact .congr whole same (by omega) (induction _ later after ready (by omega) (by omega))

/-- How reading the rest of a body ends: it has all the bytes that were missing, or finds the end
before. Interruptions are read over. -/
inductive BodyRead (ahead : List Answer → σ → Prop) (missing : Nat) (got : Bytes)
    (answers : List Answer) : Except IoError Bytes × σ → Prop
  | short {after : σ} (few : (Answer.delivered answers).length < missing)
      (harmless : Stage.harm (.beforeBody missing) answers = none) :
      BodyRead ahead missing got answers
        (.error (.unexpectedEnd "failed to fill whole buffer"), after)
  | whole {front gathered : Bytes} {later : List Answer} {after : σ}
      (joined : gathered = got ++ front) (filled : front.length = missing)
      (split : Answer.delivered answers = front ++ Answer.delivered later)
      (same : Stage.harm (.beforeBody missing) answers = Stage.harm (.length []) later)
      (lighter : Answer.weight later ≤ Answer.weight answers) (ready : ahead later after) :
      BodyRead ahead missing got answers (.ok gathered, after)

theorem BodyRead.resume {missing : Nat} {got piece : Bytes} {answers later : List Answer}
    {result : Except IoError Bytes × σ} (within : piece.length ≤ missing)
    (bytes : Answer.delivered answers = piece ++ Answer.delivered later)
    (harm : Stage.harm (.beforeBody missing) answers =
      Stage.harm (.beforeBody (missing - piece.length)) later)
    (lighter : Answer.weight later ≤ Answer.weight answers)
    (read : BodyRead ahead (missing - piece.length) (got ++ piece) later result) :
    BodyRead ahead missing got answers result := by
  cases read with
  | short few harmless =>
      exact .short (by rw [bytes, List.length_append]; omega) (harm.trans harmless)
  | @whole front gathered last after joined filled split same lighterStill ready =>
      rw [List.append_assoc] at joined
      apply BodyRead.whole joined _ _ (harm.trans same) (Nat.le_trans lighterStill lighter) ready
      · rw [List.length_append, filled, Nat.add_sub_cancel' within]
      · rw [bytes, split, List.append_assoc]

theorem exactly_complete (patience : Nat) (got : Bytes) {answers : List Answer} {state : σ}
    (holds : ahead answers state) :
    BodyRead ahead 0 got.reverse answers
      (perform (source.collectExactly patience 0 got) state) := by
  rw [Source.collectExactly, perform_pure]
  exact .whole (List.append_nil _).symm rfl rfl rfl (Nat.le_refl _) holds

theorem exactly_follows (follows : source.Follows ahead) (patience missing : Nat) (got : Bytes)
    (answers : List Answer) (state : σ) (holds : ahead answers state)
    (patient : Answer.weight answers ≤ patience) :
    BodyRead ahead missing got.reverse answers
      (perform (source.collectExactly patience missing got) state) := by
  -- A read takes from the weight of the schedule; without weight nothing is delivered.
  induction patience generalizing missing got answers state with
  | zero =>
      cases missing with
      | zero => exact exactly_complete 0 got holds
      | succ missing =>
          rcases Stage.of_weightless (Nat.le_zero.mp patient) with ⟨nothing, harmless⟩
          rw [Source.collectExactly, perform_throw]
          · exact .short (by rw [nothing]; exact Nat.succ_pos missing) (harmless _)
          · simp
  | succ patience induction =>
      cases missing with
      | zero => exact exactly_complete (patience + 1) got holds
      | succ missing =>
          have asks : 0 < missing + 1 := Nat.succ_pos missing
          have read := source_follows follows holds asks
          rw [Source.collectExactly, perform_bind, perform_outcome]
          · generalize perform (source (missing + 1)) state = result at read
            cases read with
            | ended exhausted =>
                rw [exhausted]
                simp only [perform_throw]
                exact .short asks (Stage.harm_nil _)
            | @interrupted text later after first ready =>
                rw [first] at patient ⊢
                rw [Answer.weight] at patient
                have resumed := induction (missing + 1) got later after ready (by omega)
                rw [← List.append_nil got.reverse] at resumed
                exact .resume (Nat.zero_le _) rfl rfl (Nat.le_succ _) resumed
            | @piece first others later after fits split lighter harm ready =>
                have positive : 0 < (first :: others).length := Nat.succ_pos _
                have resumed := induction (missing + 1 - (first :: others).length)
                  ((first :: others).reverseAux got) later after ready (by omega)
                rw [Source.reverse_reverse_aux] at resumed
                have same := harm (.beforeBody (missing + 1))
                rw [Stage.advance_body fits] at same
                exact .resume fits split same (by omega) resumed
          · simp

/-- How reading a field ends: it is harmed, or finds the end before or within the field, or has the
whole of it, and then the next length comes. -/
inductive FieldRead (ahead : List Answer → σ → Prop) (answers : List Answer) :
    Except IoError (Option Bytes) × σ → Prop
  | harmed {text : String} {after : σ} (harm : Stage.harm (.length []) answers = some text) :
      FieldRead ahead answers (.error ⟨.interrupted, text⟩, after)
  | ended {after : σ} (nothing : Answer.delivered answers = [])
      (harmless : Stage.harm (.length []) answers = none) :
      FieldRead ahead answers (.ok none, after)
  | broken {error : IoError} {after : σ} (cut : CutShort (Answer.delivered answers) error)
      (harmless : Stage.harm (.length []) answers = none) :
      FieldRead ahead answers (.error error, after)
  | whole {field : Bytes} {later : List Answer} {after : σ} (short : field.length ≤ maxField)
      (split : Answer.delivered answers = encodeField field ++ Answer.delivered later)
      (same : Stage.harm (.length []) answers = Stage.harm (.length []) later)
      (lighter : Answer.weight later < Answer.weight answers) (ready : ahead later after) :
      FieldRead ahead answers (.ok (some field), after)

theorem field_follows (follows : source.Follows ahead) (patience : Nat) (answers : List Answer)
    (state : σ) (holds : ahead answers state) (patient : Answer.weight answers ≤ patience) :
    FieldRead ahead answers (perform (field source patience) state) := by
  have length := header_follows follows 4 [] answers state holds (by decide) (by decide)
  rw [field, perform_bind]
  generalize perform (header source 4 []) state = result at length
  cases length with
  | harmed harm => exact .harmed harm
  | ended nothing harmless =>
      simp only [perform_pure]
      exact .ended nothing harmless
  | short begun few harmless => exact .broken (.header begun few) harmless
  | @whole length later after four split same lighter ready =>
      have written : lengthBytes (Bytes.toNat length) = length := Bytes.of_word_to_nat four
      have fits := Bytes.to_nat_of_four four
      have body := exactly_follows follows patience (Bytes.toNat length) [] later after ready
        (by omega)
      simp only [Source.exactly]
      rw [perform_bind]
      generalize perform (source.collectExactly patience (Bytes.toNat length) []) after = result
        at body
      rw [List.reverse_nil, List.nil_append] at split
      cases body with
      | short few harmless =>
          refine .broken ?_ (same.trans harmless)
          rw [split, ← written]
          exact .body fits few
      | @whole front gathered last final joined filled splitBody sameBody lighterStill ready =>
          rw [joined]
          simp only [perform_pure]
          refine .whole (filled ▸ fits) ?_ (same.trans sameBody) (by omega) ready
          rw [List.reverse_nil, List.nil_append, split, splitBody, encodeField, filled, written,
            List.append_assoc]

/-! All records -/

/-- How reading records ends, with those that were read before: it is harmed, or finds a clean end
behind some more records, or a broken one. -/
inductive RecordsRead (got : List Record) (answers : List Answer) :
    Except IoError (List Record) → Prop
  | harmed {text : String} (harm : Stage.harm (.length []) answers = some text) :
      RecordsRead got answers (.error ⟨.interrupted, text⟩)
  | whole {records all : List Record} (joined : all = got ++ records)
      (writable : ∀ record ∈ records, record.Writable)
      (split : Answer.delivered answers = encodeAll records)
      (harmless : Stage.harm (.length []) answers = none) : RecordsRead got answers (.ok all)
  | broken {records : List Record} {tail : Bytes} {error : IoError}
      (writable : ∀ record ∈ records, record.Writable)
      (split : Answer.delivered answers = encodeAll records ++ tail) (broken : Broken tail error)
      (harmless : Stage.harm (.length []) answers = none) :
      RecordsRead got answers (.error error)

theorem RecordsRead.cons {got : List Record} {record : Record} {answers later : List Answer}
    {result : Except IoError (List Record)} (writable : record.Writable)
    (split : Answer.delivered answers = record.encode ++ Answer.delivered later)
    (same : Stage.harm (.length []) answers = Stage.harm (.length []) later)
    (read : RecordsRead (got ++ [record]) later result) : RecordsRead got answers result := by
  cases read with
  | harmed harm => exact .harmed (same.trans harm)
  | whole joined others splitRest harmless =>
      rw [List.append_assoc, List.singleton_append] at joined
      refine .whole joined (List.forall_mem_cons.mpr ⟨writable, others⟩) ?_ (same.trans harmless)
      rw [split, splitRest, encode_all_cons]
  | broken others splitRest broken harmless =>
      refine .broken (List.forall_mem_cons.mpr ⟨writable, others⟩) ?_ broken (same.trans harmless)
      rw [split, splitRest, encode_all_cons, List.append_assoc]

theorem collect_follows (follows : source.Follows ahead) (patience steps : Nat)
    (got : List Record) (answers : List Answer) (state : σ) (holds : ahead answers state)
    (patient : Answer.weight answers ≤ patience) (enough : Answer.weight answers ≤ steps) :
    RecordsRead got.reverse answers (perform (collect source patience steps got) state).1 := by
  -- A record takes from the weight of the schedule, so there are steps for all of them.
  induction steps generalizing got answers state with
  | zero =>
      rcases Stage.of_weightless (Nat.le_zero.mp enough) with ⟨nothing, harmless⟩
      rw [collect, perform_pure]
      exact .whole (List.append_nil _).symm (List.forall_mem_nil _) nothing (harmless _)
  | succ steps induction =>
      have key := field_follows follows patience answers state holds patient
      rw [collect, perform_bind]
      generalize perform (field source patience) state = result at key
      cases key with
      | harmed harm => exact .harmed harm
      | ended nothing harmless =>
          simp only [perform_pure]
          exact .whole (List.append_nil _).symm (List.forall_mem_nil _) nothing harmless
      | broken cut harmless => exact .broken (List.forall_mem_nil _) rfl (.key cut) harmless
      | @whole key behind middle keyShort keySplit keySame keyLighter keyReady =>
          have value := field_follows follows patience behind middle keyReady (by omega)
          simp only
          rw [perform_bind]
          generalize perform (field source patience) middle = result at value
          cases value with
          | harmed harm => exact .harmed (keySame.trans harm)
          | ended nothing harmless =>
              rw [nothing, List.append_nil] at keySplit
              simp only [perform_throw]
              exact .broken (List.forall_mem_nil _) keySplit (.absent keyShort)
                (keySame.trans harmless)
          | broken cut harmless =>
              exact .broken (List.forall_mem_nil _) keySplit (.value keyShort cut)
                (keySame.trans harmless)
          | @whole value later after valueShort valueSplit valueSame valueLighter valueReady =>
              have rest := induction (⟨key, value⟩ :: got) later after valueReady (by omega)
                (by omega)
              rw [List.reverse_cons] at rest
              apply RecordsRead.cons ⟨keyShort, valueShort⟩ _ (keySame.trans valueSame) rest
              rw [keySplit, valueSplit, encode, List.append_assoc]

end fields

/-! Reading at once -/

/-- Bytes that are handed out at once give the records that they begin with, or the error of what
comes behind these. -/
theorem decode_broken {records : List Record} {tail : Bytes} {error : IoError}
    (writable : ∀ record ∈ records, record.Writable) (broken : Broken tail error) :
    decodeAll none (encodeAll records ++ tail) = .error error := by
  rcases read_all_broken (Source.of_bytes_delivers none (by simp))
    ((encodeAll records ++ tail).length + 1) records writable broken (encodeAll records ++ tail) rfl
    (Nat.le_succ _) with ⟨after, result⟩
  rw [perform_eq_run] at result
  rw [decodeAll, result]

/-- Reading records from a reader that is interrupted gives what the same bytes give at once, unless
an interruption comes where a length is read. The first one that does is the error that the reading
ends with, and it is never what the bytes give at once. -/
theorem interrupted_reading {m : Type → Type} [Monad m] {σ : Type} [Stateful m σ]
    {source : Source m} {ahead : List Answer → σ → Prop} (follows : source.Follows ahead)
    (answers : List Answer) (state : σ) (holds : ahead answers state) (patience : Nat)
    (patient : Answer.weight answers ≤ patience) :
    (perform (readAll source patience) state).1 =
      (match Stage.harm (.length []) answers with
        | some text => .error ⟨.interrupted, text⟩
        | none => decodeAll none (Answer.delivered answers)) ∧
    ((perform (readAll source patience) state).1 = decodeAll none (Answer.delivered answers) ↔
      Stage.harm (.length []) answers = none) := by
  have read := collect_follows follows patience patience [] answers state holds patient patient
  have atOnce (text : String) :
      decodeAll none (Answer.delivered answers) ≠ .error ⟨.interrupted, text⟩ := by
    intro interrupted
    rcases records_and_tail (Answer.delivered answers) with
      ⟨records, tail, writable, split, nothing | ⟨error, broken⟩⟩
    · rw [split, nothing, List.append_nil, decode_encode none (by simp) records writable]
        at interrupted
      cases interrupted
    · rw [split, decode_broken writable broken] at interrupted
      have kind := broken.kind
      rw [Except.error.inj interrupted] at kind
      cases kind
  rw [readAll]
  generalize (perform (collect source patience patience []) state).1 = result at read
  cases read with
  | harmed harm =>
      rw [harm]
      exact ⟨rfl, fun same => absurd same.symm (atOnce _), fun harmless => by cases harmless⟩
  | whole joined writable split harmless =>
      rw [harmless, split, decode_encode none (by simp) _ writable, joined]
      exact ⟨rfl, fun _ => rfl, fun _ => rfl⟩
  | broken writable split broken harmless =>
      rw [harmless, split, decode_broken writable broken]
      exact ⟨rfl, fun _ => rfl, fun _ => rfl⟩

end Record

/-! A reader with a schedule -/

def Source.ofAnswers : Source (StateM (List Answer)) := fun size =>
  ExceptT.mk fun answers =>
    match answers with
    | [] => (.ok [], [])
    | .interrupted text :: later => (.error ⟨.interrupted, text⟩, later)
    | .piece bytes :: later => (.ok (bytes.take size), Answer.leave bytes size later)

def Answer.Present (answers : List Answer) : Prop := Answer.piece [] ∉ answers

instance (answers : List Answer) : Decidable (Answer.Present answers) :=
  inferInstanceAs (Decidable (Answer.piece [] ∉ answers))

theorem Source.of_answers_follows :
    Source.ofAnswers.Follows fun answers state => state = answers ∧ Answer.Present answers := by
  constructor
  · rintro _ ⟨rfl, present⟩ size _
    exact ⟨[], rfl, rfl, present⟩
  · rintro text later _ ⟨rfl, present⟩ size _
    exact ⟨later, rfl, rfl, fun member => present (List.mem_cons_of_mem _ member)⟩
  · rintro bytes later _ ⟨rfl, present⟩
    refine ⟨fun empty => present (empty ▸ List.mem_cons_self), fun size _ =>
      ⟨Answer.leave bytes size later, rfl, rfl, ?_⟩⟩
    intro member
    rw [Answer.leave] at member
    by_cases all : bytes.length ≤ size
    · rw [if_pos all] at member
      exact present (List.mem_cons_of_mem _ member)
    · rw [if_neg all] at member
      rcases List.mem_cons.mp member with same | later
      · have length := List.length_drop (i := size) (l := bytes)
        rw [← Answer.piece.inj same] at length
        simp at length
        omega
      · exact present (List.mem_cons_of_mem _ later)

namespace Record

/-- A record in three pieces that cut both its lengths, interrupted in both its fields. -/
def bodyInterrupted : List Answer :=
  [.piece [0, 0], .piece [0, 2, 107], .interrupted "again", .piece [108, 0, 0], .piece [0, 1],
   .interrupted "again", .piece [118]]

theorem body_interrupted_read :
    (perform (readAll Source.ofAnswers 13) bodyInterrupted).1 =
      .ok [⟨[107, 108], [118]⟩] := by
  have read := interrupted_reading Source.of_answers_follows bodyInterrupted bodyInterrupted
    ⟨rfl, by decide⟩ 13 (by decide)
  exact (read.2.mpr (by decide)).trans (by decide)

/-- A record that comes whole behind one interruption is not read, though it is where it comes at
once. -/
theorem first_interrupted_refused :
    Answer.delivered [.interrupted "interrupted", .piece (encode ⟨[107], [118]⟩)] =
        encode ⟨[107], [118]⟩ ∧
      decodeAll none (encode ⟨[107], [118]⟩) = .ok [⟨[107], [118]⟩] ∧
      (perform (readAll Source.ofAnswers 11)
        [.interrupted "interrupted", .piece (encode ⟨[107], [118]⟩)]).1 =
          .error ⟨.interrupted, "interrupted"⟩ := by
  refine ⟨by decide, by decide, by decide⟩

end Record

end ChunkStore
