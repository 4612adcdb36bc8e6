import ChunkStore.FileSystem.Source
import ChunkStore.Proofs.Execution
import Mathlib.Data.List.TakeDrop
import Mathlib.Data.List.TakeWhile

/-!
What reading gives. A source that hands out its bytes in order, in pieces as short as it likes,
lets every loop over it see exactly those bytes: reading an exact number of them, reading a line,
and reading through a buffer do not depend on where the source pauses.
-/

namespace ChunkStore.Source

set_option autoImplicit false

open Stateful

variable {m : Type → Type} [Monad m] {σ : Type} [Stateful m σ]

/-- In a state with some bytes ahead the source gives a beginning of them, an empty one only at
the end, and then has the rest ahead. -/
def Delivers (source : Source m) (ahead : Bytes → σ → Prop) : Prop :=
  ∀ (bytes : Bytes) (state : σ) (size : Nat), ahead bytes state → 0 < size →
    ∃ piece rest after, perform (source size) state = (.ok piece, after) ∧
      bytes = piece ++ rest ∧ ahead rest after ∧ piece.length ≤ size ∧ (piece = [] → bytes = [])

/-! Pieces -/

/-- A piece that goes before those already got, latest first, comes after them. -/
theorem reverse_reverse_aux {α : Type} (piece got : List α) :
    (piece.reverseAux got).reverse = got.reverse ++ piece := by
  rw [List.reverseAux_eq, List.reverse_append, List.reverse_reverse]

theorem length_reverse_aux {α : Type} (piece got : List α) :
    (piece.reverseAux got).length = got.length + piece.length := by
  rw [List.reverseAux_eq, List.length_append, List.length_reverse, Nat.add_comm]

/-- Less is ahead behind a piece, so a loop has patience for the rest. -/
theorem length_behind_piece {bytes piece rest : Bytes} {patience : Nat}
    (split : bytes = piece ++ rest) (present : piece ≠ [])
    (patient : bytes.length ≤ patience + 1) : rest.length ≤ patience := by
  have positive := List.length_pos_iff.mpr present
  rw [split, List.length_append] at patient
  omega

theorem piece_of_front {front back piece rest : Bytes} (split : front ++ back = piece ++ rest)
    (within : piece.length ≤ front.length) :
    ∃ left, front = piece ++ left ∧ rest = left ++ back := by
  rcases List.append_eq_append_iff.mp split with ⟨beyond, longer, behind⟩ | ⟨left, begins, behind⟩
  · rw [longer, List.length_append] at within
    have none : beyond = [] := List.length_eq_zero_iff.mp (by omega)
    rw [none, List.append_nil] at longer
    rw [none, List.nil_append] at behind
    exact ⟨[], by rw [longer, List.append_nil], by rw [behind, List.nil_append]⟩
  · exact ⟨left, begins, behind⟩

/-! Exact lengths -/

theorem collect_exactly_enough {source : Source m} {ahead : Bytes → σ → Prop}
    (delivers : Delivers source ahead) (patience size : Nat) (got bytes : Bytes) (state : σ)
    (holds : ahead bytes state) (patient : size ≤ patience) (enough : size ≤ bytes.length) :
    ∃ after, perform (collectExactly source patience size got) state =
      (.ok (got.reverse ++ bytes.take size), after) ∧ ahead (bytes.drop size) after := by
  induction patience generalizing size got bytes state with
  | zero =>
      have none : size = 0 := by omega
      subst none
      exact ⟨state, by simp [collectExactly], by simpa using holds⟩
  | succ patience induction =>
      cases size with
      | zero => exact ⟨state, by simp [collectExactly], by simpa using holds⟩
      | succ size =>
          obtain ⟨piece, rest, after, read, split, holdsRest, short, ends⟩ :=
            delivers bytes state (size + 1) holds (by omega)
          rw [collectExactly, perform_bind, perform_outcome, read]
          · cases piece with
            | nil =>
                rw [ends rfl] at enough
                exact absurd enough (by simp)
            | cons first others =>
                rw [split, List.length_append] at enough
                obtain ⟨final, result, holdsFinal⟩ :=
                  induction (size + 1 - (first :: others).length)
                    ((first :: others).reverseAux got) rest after holdsRest
                    (by simp only [List.length_cons]; omega) (by omega)
                refine ⟨final, ?_, ?_⟩
                · simp only
                  rw [result, split, reverse_reverse_aux, List.append_assoc, List.take_append,
                    List.take_of_length_le short]
                · rw [split, List.drop_append, List.drop_eq_nil_of_le short, List.nil_append]
                  exact holdsFinal
          · simp

theorem exactly_enough {source : Source m} {ahead : Bytes → σ → Prop}
    (delivers : Delivers source ahead) (patience : Nat) (front back : Bytes) (state : σ)
    (holds : ahead (front ++ back) state) (patient : front.length ≤ patience) :
    ∃ after, perform (exactly source patience front.length) state = (.ok front, after) ∧
      ahead back after := by
  obtain ⟨after, result, rest⟩ := collect_exactly_enough delivers patience front.length []
    (front ++ back) state holds patient (by simp)
  refine ⟨after, ?_, by simpa using rest⟩
  rw [exactly, result]
  simp

/-! Buffers -/

/-- Bytes are ahead of a buffer when it holds their beginning and the rest is ahead below. -/
def heldAhead (ahead : Bytes → σ → Prop) (bytes : Bytes) (state : Bytes × σ) : Prop :=
  ∃ rest, bytes = state.1 ++ rest ∧ ahead rest state.2

theorem held_ahead_of_empty {ahead : Bytes → σ → Prop} {bytes : Bytes} {state : σ}
    (holds : ahead bytes state) : heldAhead ahead bytes ([], state) :=
  ⟨bytes, rfl, holds⟩

/-- Filling leaves in the buffer what it answers, a beginning of what is ahead that is empty only
at the end. -/
theorem fill_delivers {source : Source m} {ahead : Bytes → σ → Prop}
    (delivers : Delivers source ahead) {capacity : Nat} (room : 0 < capacity) {bytes : Bytes}
    {state : Bytes × σ} (holds : heldAhead ahead bytes state) :
    ∃ piece rest after, perform (fill source capacity) state = (.ok piece, piece, after) ∧
      bytes = piece ++ rest ∧ ahead rest after ∧ (piece = [] → bytes = []) := by
  obtain ⟨held, below⟩ := state
  obtain ⟨rest, split, ready⟩ := holds
  simp only at split ready
  unfold fill
  cases held with
  | cons first others =>
      refine ⟨first :: others, rest, below, ?_, split, ready, by simp⟩
      rw [perform_bind, perform_get]
      simp
  | nil =>
      obtain ⟨piece, left, after, read, cut, ready', _, ends⟩ :=
        delivers rest below capacity ready room
      refine ⟨piece, left, after, ?_, by simpa [split] using cut, ready',
        by simpa [split] using ends⟩
      rw [perform_bind, perform_get]
      simp only [perform_bind, perform_below, read, perform_set, perform_pure]

/-- A buffer changes where a source pauses, not what it delivers. -/
theorem buffered_delivers {source : Source m} {ahead : Bytes → σ → Prop}
    (delivers : Delivers source ahead) {capacity : Nat} (room : 0 < capacity) :
    Delivers (buffered source capacity) (heldAhead ahead) := by
  intro bytes state size holds positive
  obtain ⟨held, below⟩ := state
  rw [buffered, perform_bind, perform_get]
  by_cases direct : held.isEmpty = true ∧ capacity ≤ size
  · obtain ⟨rest, split, ready⟩ := holds
    obtain ⟨piece, left, after, read, cut, ready', short, ends⟩ :=
      delivers rest below size ready positive
    have empty : held = [] := List.isEmpty_iff.mp direct.1
    subst empty
    refine ⟨piece, left, ([], after), ?_, by simpa [split] using cut,
      held_ahead_of_empty ready', short, by simpa [split] using ends⟩
    simp only [direct, and_self, if_true, perform_below, read]
  · obtain ⟨piece, rest, after, filled, split, ready, ends⟩ := fill_delivers delivers room holds
    refine ⟨piece.take size, piece.drop size ++ rest, (piece.drop size, after), ?_, ?_,
      ⟨rest, rfl, ready⟩, List.length_take_le _ _, ?_⟩
    · simp only [direct, if_false, perform_bind, filled, perform_set, perform_pure]
    · rw [← List.append_assoc, List.take_append_drop, split]
    · intro none
      apply ends
      rcases List.take_eq_nil_iff.mp none with zero | empty
      · omega
      · exact empty

/-! Lines -/

def cutLine : Bytes → Bytes × Bytes
  | [] => ([], [])
  | byte :: rest =>
      if byte = lineFeed then ([byte], rest) else (byte :: (cutLine rest).1, (cutLine rest).2)

theorem cut_line_append (bytes : Bytes) : (cutLine bytes).1 ++ (cutLine bytes).2 = bytes := by
  induction bytes with
  | nil => rfl
  | cons byte rest induction =>
      unfold cutLine
      split
      · rfl
      · rw [List.cons_append, induction]

theorem cut_line_of_front {front : Bytes} (plain : lineFeed ∉ front) (rest : Bytes) :
    cutLine (front ++ rest) = (front ++ (cutLine rest).1, (cutLine rest).2) := by
  induction front with
  | nil => rfl
  | cons byte front induction =>
      rw [List.mem_cons, not_or] at plain
      rw [List.cons_append, cutLine, if_neg (Ne.symm plain.1), induction plain.2]
      rfl

theorem cut_line_at_feed {front : Bytes} (plain : lineFeed ∉ front) (rest : Bytes) :
    cutLine (front ++ lineFeed :: rest) = (front ++ [lineFeed], rest) := by
  rw [cut_line_of_front plain, cutLine, if_pos rfl]

theorem span_mark (mark : UInt8) (bytes : Bytes) :
    ∃ front back, bytes.span (· != mark) = (front, back) ∧ bytes = front ++ back ∧
      mark ∉ front ∧ (back = [] ∨ ∃ rest, back = mark :: rest) := by
  refine ⟨bytes.takeWhile (· != mark), bytes.dropWhile (· != mark), ?_, ?_, ?_, ?_⟩
  · exact List.span_eq_takeWhile_dropWhile ..
  · exact List.takeWhile_append_dropWhile.symm
  · intro member
    simpa using List.mem_takeWhile_imp member
  · cases found : bytes.dropWhile (· != mark) with
    | nil => exact Or.inl rfl
    | cons byte rest =>
        refine Or.inr ⟨rest, ?_⟩
        have stopped := List.head?_dropWhile_not (· != mark) bytes
        rw [found] at stopped
        have isMark : byte = mark := by simpa using stopped
        rw [isMark]

theorem span_line_feed (bytes : Bytes) :
    ∃ front back, bytes.span (· != lineFeed) = (front, back) ∧ bytes = front ++ back ∧
      lineFeed ∉ front ∧ (back = [] ∨ ∃ rest, back = lineFeed :: rest) :=
  span_mark lineFeed bytes

theorem collect_line_delivers {source : Source m} {ahead : Bytes → σ → Prop}
    (delivers : Delivers source ahead) {capacity : Nat} (room : 0 < capacity) (patience : Nat)
    (got bytes : Bytes) (state : Bytes × σ) (holds : heldAhead ahead bytes state)
    (patient : bytes.length ≤ patience) :
    ∃ after, perform (collectLine source capacity patience got) state =
      (.ok (got.reverse ++ (cutLine bytes).1), after) ∧
        heldAhead ahead (cutLine bytes).2 after := by
  -- A piece that is not empty takes from what is ahead, which the patience bounds.
  induction patience generalizing got bytes state with
  | zero =>
      have none : bytes = [] := List.length_eq_zero_iff.mp (by omega)
      subst none
      exact ⟨state, by simp [collectLine, cutLine], by simpa [cutLine] using holds⟩
  | succ patience induction =>
      obtain ⟨piece, rest, below, filled, split, ready, ends⟩ := fill_delivers delivers room holds
      rw [collectLine, perform_bind, perform_outcome, filled]
      cases piece with
      | nil =>
          rw [ends rfl]
          refine ⟨([], below), by simp [cutLine], ⟨rest, ?_, ready⟩⟩
          rw [ends rfl, List.nil_append] at split
          simp [cutLine, ← split]
      | cons first others =>
          obtain ⟨front, back, spanned, whole, plain, shape⟩ := span_line_feed (first :: others)
          simp only [spanned]
          rcases shape with noFeed | ⟨left, atFeed⟩
          · subst noFeed
            rw [List.append_nil] at whole
            rw [whole] at split
            have present : front ≠ [] := whole ▸ List.cons_ne_nil first others
            have shorter := length_behind_piece split present patient
            obtain ⟨after, result, final⟩ := induction (front.reverseAux got) rest ([], below)
              (held_ahead_of_empty ready) shorter
            refine ⟨after, ?_, ?_⟩
            · simp only [perform_bind, perform_set, result]
              rw [split, cut_line_of_front plain, reverse_reverse_aux, List.append_assoc]
            · rw [split, cut_line_of_front plain]
              exact final
          · subst atFeed
            have cut : cutLine bytes = (front ++ [lineFeed], left ++ rest) := by
              rw [split, whole, List.append_assoc, List.cons_append, cut_line_at_feed plain]
            refine ⟨(left, below), ?_, ⟨rest, ?_, ready⟩⟩
            · simp only [perform_bind, perform_set, perform_pure]
              rw [cut, List.reverseAux_eq]
              simp
            · rw [cut]

/-- Reading a line cuts what is ahead behind its first line feed. -/
theorem line_delivers {source : Source m} {ahead : Bytes → σ → Prop}
    (delivers : Delivers source ahead) {capacity : Nat} (room : 0 < capacity) (patience : Nat)
    (bytes : Bytes) (state : Bytes × σ) (holds : heldAhead ahead bytes state)
    (patient : bytes.length ≤ patience) :
    ∃ after, perform (line source capacity patience) state = (.ok (cutLine bytes).1, after) ∧
      heldAhead ahead (cutLine bytes).2 after := by
  obtain ⟨after, result, rest⟩ :=
    collect_line_delivers delivers room patience [] bytes state holds patient
  exact ⟨after, by simpa [line] using result, rest⟩

/-! What reading leaves alone -/

section keeps

variable {source : Source m} {inv : σ → Prop} (keeps : ∀ size, Keeps inv (source size))

include keeps

theorem keeps_collect_exactly (patience size : Nat) (got : Bytes) :
    Keeps inv (collectExactly source patience size got) := by
  induction patience generalizing size got with
  | zero =>
      cases size with
      | zero => exact keeps_pure _
      | succ size => exact keeps_throw _
  | succ patience induction =>
      cases size with
      | zero => exact keeps_pure _
      | succ size =>
          rw [collectExactly]
          · apply keeps_bind (keeps_outcome (keeps _))
            intro answer
            split
            · split
              · exact induction _ got
              · exact keeps_throw _
            · exact keeps_throw _
            · exact induction _ _
          · simp

theorem keeps_fill (capacity : Nat) :
    Keeps (fun state => inv state.2) (fill source capacity) := by
  apply keeps_bind keeps_get
  intro held
  split
  · refine keeps_bind (keeps_below (keeps capacity)) fun bytes => ?_
    exact keeps_bind (keeps_set bytes) fun _ => keeps_pure _
  · exact keeps_pure _

theorem keeps_buffered (capacity size : Nat) :
    Keeps (fun state => inv state.2) (buffered source capacity size) := by
  apply keeps_bind keeps_get
  intro held
  split
  · exact keeps_below (keeps size)
  · refine keeps_bind (keeps_fill keeps capacity) fun bytes => ?_
    exact keeps_bind (keeps_set _) fun _ => keeps_pure _

theorem keeps_line (capacity patience : Nat) :
    Keeps (fun state => inv state.2) (line source capacity patience) := by
  have loop (got : Bytes) :
      Keeps (fun state => inv state.2) (collectLine source capacity patience got) := by
    induction patience generalizing got with
    | zero => exact keeps_pure _
    | succ patience induction =>
        unfold collectLine
        apply keeps_bind (keeps_outcome (keeps_fill keeps capacity))
        intro answer
        split
        · split
          · exact induction got
          · exact keeps_throw _
        · exact keeps_pure _
        · split
          · exact keeps_bind (keeps_set _) fun _ => induction _
          · exact keeps_bind (keeps_set _) fun _ => keeps_pure _
  exact loop []

end keeps

end ChunkStore.Source
