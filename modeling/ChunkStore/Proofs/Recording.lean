import ChunkStore.Job
import ChunkStore.Proofs.Execution

/-!
Computations with a record of their calls. A file system and an engine can write down every call
that is made of them and how it failed, if it did; whatever is put together from their calls then
comes to the same result in the same state, and its record is that of its parts one after the
other. So what a computation calls can be proved along its own structure.
-/

namespace ChunkStore

set_option autoImplicit false

open Stateful

/-- A call of a file system, with what it was given; a reader or a writer stays unnamed. -/
inductive Call
  | exists? (path : Path)
  | list (path : Path)
  | openReader (path : Path)
  | read (size : Nat)
  | create (path : Path)
  | write (bytes : Bytes)
  | flush
  | close
  | createDirectories (path : Path)
  | deleteTree (path : Path)
deriving DecidableEq, Repr

inductive Event
  | call (call : Call) (failure : Option IoError)
  | run (job : JobSpec) (failure : Option EngineError)

def failureOf {ε α : Type} : Except ε α → Option ε
  | .error error => some error
  | .ok _ => none

section recorded

variable {m : Type → Type} [Monad m] {Reader Writer ε τ α : Type}

def noted (event : Option ε → Event) (body : ExceptT ε m α) :
    ExceptT ε (StateT (List Event) m) α :=
  ExceptT.mk fun record => do
    let result ← body.run
    pure (result, record ++ [event (failureOf result)])

/-- The same for a computation with a state of its own, which lies above the record. -/
def notedWith (event : Option ε → Event) (body : ExceptT ε (StateT τ m) α) :
    ExceptT ε (StateT τ (StateT (List Event) m)) α :=
  ExceptT.mk fun state record => do
    let (result, after) ← body.run.run state
    pure ((result, after), record ++ [event (failureOf result)])

/-- The same file system with a record of the calls that are made of it. The bounds that it promises
are no calls. -/
def FileSystem.recorded (files : FileSystem m Reader Writer) :
    FileSystem (StateT (List Event) m) Reader Writer where
  exists? path := noted (.call (.exists? path)) (files.exists? path)
  list path := noted (.call (.list path)) (files.list path)
  openReader path := noted (.call (.openReader path)) (files.openReader path)
  read size := notedWith (.call (.read size)) (files.read size)
  create path := noted (.call (.create path)) (files.create path)
  write bytes := notedWith (.call (.write bytes)) (files.write bytes)
  flush := notedWith (.call .flush) files.flush
  close writer := fun record => do
    files.close writer
    pure ((), record ++ [.call .close none])
  createDirectories path := noted (.call (.createDirectories path)) (files.createDirectories path)
  deleteTree path := noted (.call (.deleteTree path)) (files.deleteTree path)
  patience := files.patience
  extent := StateT.lift files.extent

def JobEngine.recorded (engine : JobEngine m) : JobEngine (StateT (List Event) m) where
  name := engine.name
  run job := noted (.run job) (engine.run job)

end recorded

/-! Recording along a computation -/

section records

variable {p r : Type → Type} [Monad p] [Monad r] {S R : Type} [Stateful p S] [Stateful r R]
  {ε δ α β : Type}

/-- From one state, the second computation does what the first one does and adds to the record what
`post` says of how the first one ends. -/
def RecordsAt (join : List Event → S → R) (post : Except ε α → S → List Event → Prop)
    (body : ExceptT ε p α) (recording : ExceptT ε r α) (state : S) : Prop :=
  ∃ events, post (perform body state).1 (perform body state).2 events ∧
    ∀ record, perform recording (join record state) =
      ((perform body state).1, join (record ++ events) (perform body state).2)

/-- The same from every state, where the record depends on the result alone. -/
def Records (join : List Event → S → R) (post : Except ε α → List Event → Prop)
    (body : ExceptT ε p α) (recording : ExceptT ε r α) : Prop :=
  ∀ state, RecordsAt join (fun result _ events => post result events) body recording state

namespace RecordsAt

variable {join : List Event → S → R} {post : Except ε α → S → List Event → Prop} {state : S}

theorem mono {weaker : Except ε α → S → List Event → Prop} {body : ExceptT ε p α}
    {recording : ExceptT ε r α} (records : RecordsAt join post body recording state)
    (implies : ∀ result after events, post result after events → weaker result after events) :
    RecordsAt join weaker body recording state := by
  obtain ⟨events, holds, same⟩ := records
  exact ⟨events, implies _ _ _ holds, same⟩

theorem pure {value : α} (holds : post (.ok value) state []) :
    RecordsAt join post (pure value : ExceptT ε p α) (Pure.pure value : ExceptT ε r α) state := by
  rw [RecordsAt, perform_pure]
  exact ⟨[], holds, fun record => by rw [perform_pure, List.append_nil]⟩

theorem throw {error : ε} (holds : post (.error error) state []) :
    RecordsAt join post (throw error : ExceptT ε p α) (MonadExcept.throw error : ExceptT ε r α)
      state := by
  rw [RecordsAt, perform_throw]
  exact ⟨[], holds, fun record => by rw [perform_throw, List.append_nil]⟩

/-- The record of a sequence is that of its first part and then, if that succeeds, that of the
second. -/
theorem bind {first : ExceptT ε p α} {firstRecording : ExceptT ε r α} {next : α → ExceptT ε p β}
    {nextRecording : α → ExceptT ε r β} {whole : Except ε β → S → List Event → Prop}
    (before : RecordsAt join post first firstRecording state)
    (after : ∀ value between events, post (.ok value) between events →
      RecordsAt join (fun result final later => whole result final (events ++ later)) (next value)
        (nextRecording value) between)
    (failing : ∀ error between events, post (.error error) between events →
      whole (.error error) between events) :
    RecordsAt join whole (first >>= next) (firstRecording >>= nextRecording) state := by
  obtain ⟨events, holds, same⟩ := before
  rw [RecordsAt, perform_bind]
  cases begun : perform first state with
  | mk result between =>
      rw [begun] at holds same
      cases result with
      | error error =>
          refine ⟨events, failing error between events holds, fun record => ?_⟩
          rw [perform_bind, same]
      | ok value =>
          obtain ⟨later, laterHolds, laterSame⟩ := after value between events holds
          refine ⟨events ++ later, laterHolds, fun record => ?_⟩
          rw [perform_bind, same]
          simp only
          rw [laterSame, List.append_assoc]

theorem adapt {change : ε → δ} {body : ExceptT ε p α} {recording : ExceptT ε r α}
    (records : RecordsAt join post body recording state) :
    RecordsAt join (fun result after events =>
        ∃ given, post given after events ∧ result = given.mapError change)
      (ExceptT.adapt change body) (ExceptT.adapt change recording) state := by
  obtain ⟨events, holds, same⟩ := records
  rw [RecordsAt, perform_adapt]
  exact ⟨events, ⟨_, holds, rfl⟩, fun record => by rw [perform_adapt, same]⟩

/-- A sequence whose first part has its error changed: what is known of the first part is known of
it before the change. -/
theorem adapt_bind {change : ε → δ} {first : ExceptT ε p α} {firstRecording : ExceptT ε r α}
    {next : α → ExceptT δ p β} {nextRecording : α → ExceptT δ r β}
    {whole : Except δ β → S → List Event → Prop}
    (before : RecordsAt join post first firstRecording state)
    (after : ∀ value between events, post (.ok value) between events →
      RecordsAt join (fun result final later => whole result final (events ++ later)) (next value)
        (nextRecording value) between)
    (failing : ∀ error between events, post (.error error) between events →
      whole (.error (change error)) between events) :
    RecordsAt join whole (ExceptT.adapt change first >>= next)
      (ExceptT.adapt change firstRecording >>= nextRecording) state := by
  apply before.adapt.bind
  · rintro value between events ⟨given, holds, same⟩
    cases given with
    | error error => exact absurd same (by simp)
    | ok answer =>
        rw [Except.ok.inj same]
        exact after answer between events holds
  · rintro error between events ⟨given, holds, same⟩
    cases given with
    | ok answer => exact absurd same (by simp)
    | error cause =>
        rw [Except.error.inj same]
        exact failing cause between events holds

end RecordsAt

namespace Records

variable {join : List Event → S → R} {post : Except ε α → List Event → Prop}

theorem mono {weaker : Except ε α → List Event → Prop} {body : ExceptT ε p α}
    {recording : ExceptT ε r α} (records : Records join post body recording)
    (implies : ∀ result events, post result events → weaker result events) :
    Records join weaker body recording := by
  intro state
  apply (records state).mono
  intro result after events holds
  exact implies result events holds

theorem performed {body : ExceptT ε p α} {recording : ExceptT ε r α}
    (records : Records join post body recording) (state : S) :
    RecordsAt join (fun result after events =>
      perform body state = (result, after) ∧ post result events) body recording state := by
  obtain ⟨events, holds, same⟩ := records state
  exact ⟨events, ⟨rfl, holds⟩, same⟩

theorem pure {value : α} (holds : post (.ok value) []) :
    Records join post (pure value : ExceptT ε p α) (Pure.pure value : ExceptT ε r α) :=
  fun _ => RecordsAt.pure holds

theorem throw {error : ε} (holds : post (.error error) []) :
    Records join post (throw error : ExceptT ε p α) (MonadExcept.throw error : ExceptT ε r α) :=
  fun _ => RecordsAt.throw holds

theorem bind {first : ExceptT ε p α} {firstRecording : ExceptT ε r α} {next : α → ExceptT ε p β}
    {nextRecording : α → ExceptT ε r β} {whole : Except ε β → List Event → Prop}
    (before : Records join post first firstRecording)
    (after : ∀ value events, post (.ok value) events →
      Records join (fun result later => whole result (events ++ later)) (next value)
        (nextRecording value))
    (failing : ∀ error events, post (.error error) events → whole (.error error) events) :
    Records join whole (first >>= next) (firstRecording >>= nextRecording) := by
  intro state
  apply (before state).bind
  · intro value between events holds
    exact after value events holds between
  · intro error between events holds
    exact failing error events holds

theorem adapt {change : ε → δ} {body : ExceptT ε p α} {recording : ExceptT ε r α}
    (records : Records join post body recording) :
    Records join (fun result events => ∃ given, post given events ∧ result = given.mapError change)
      (ExceptT.adapt change body) (ExceptT.adapt change recording) :=
  fun state => (records state).adapt

theorem outcome {body : ExceptT ε p α} {recording : ExceptT ε r α}
    (records : Records join post body recording) :
    Records join (fun result events => ∃ given, post given events ∧ result = .ok given)
      (outcome body) (ChunkStore.outcome recording) := by
  intro state
  obtain ⟨events, holds, same⟩ := records state
  rw [RecordsAt, perform_outcome]
  exact ⟨events, ⟨_, holds, rfl⟩, fun record => by rw [perform_outcome, same]⟩

end Records

end records

/-! Layers -/

section layers

variable {m : Type → Type} [Monad m] {σ : Type} [Stateful m σ] {Reader Writer ε τ α : Type}

abbrev RecordsOver (post : Except ε α → List Event → Prop) (body : ExceptT ε m α)
    (recording : ExceptT ε (StateT (List Event) m) α) : Prop :=
  Records (fun record (state : σ) => (record, state)) post body recording

abbrev RecordsBelow (post : Except ε α → List Event → Prop) (body : ExceptT ε (StateT τ m) α)
    (recording : ExceptT ε (StateT τ (StateT (List Event) m)) α) : Prop :=
  Records (fun record (state : τ × σ) => (state.1, record, state.2)) post body recording

theorem records_noted (event : Option ε → Event) (body : ExceptT ε m α) :
    RecordsOver (fun result events => events = [event (failureOf result)]) body
      (noted event body) := by
  intro state
  refine ⟨_, rfl, fun record => ?_⟩
  rw [noted, perform_state, exec_bind, exec_pure]
  rfl

theorem records_noted_with (event : Option ε → Event) (body : ExceptT ε (StateT τ m) α) :
    RecordsBelow (fun result events => events = [event (failureOf result)]) body
      (notedWith event body) := by
  rintro ⟨state, rest⟩
  refine ⟨_, rfl, fun record => ?_⟩
  have ran : exec ((notedWith event body).run.run state record) rest =
      ((((perform body (state, rest)).1, (perform body (state, rest)).2.1),
        record ++ [event (failureOf (perform body (state, rest)).1)]),
        (perform body (state, rest)).2.2) := by
    change exec ((body.run.run state) >>= fun pair =>
      Pure.pure ((pair.1, pair.2), record ++ [event (failureOf pair.1)])) rest = _
    rw [exec_bind, exec_run, exec_pure]
  change (let whole := exec ((notedWith event body).run.run state record) rest
    (whole.1.1.1, whole.1.1.2, whole.1.2, whole.2)) = _
  rw [ran]

end layers

/-! Blame -/

/-- Only calls of some kind were made, and an error that came out is one with which a call had
failed. -/
structure Traced {ε α : Type} (allowed : Call → Prop) (cause : ε → IoError)
    (result : Except ε α) (events : List Event) : Prop where
  calls : ∀ event ∈ events, ∃ call failure, event = .call call failure ∧ allowed call
  blamed : ∀ error, result = .error error → ∃ call, .call call (some (cause error)) ∈ events

namespace Traced

variable {ε δ α β : Type} {allowed : Call → Prop} {cause : ε → IoError} {events later : List Event}

theorem ok (value : α) : Traced allowed cause (.ok value) [] where
  calls := by simp
  blamed := by simp

theorem single {call : Call} {result : Except IoError α} (allows : allowed call)
    (made : events = [.call call (failureOf result)]) : Traced allowed id result events where
  calls := by
    rw [made]
    intro event member
    exact ⟨call, failureOf result, List.mem_singleton.mp member, allows⟩
  blamed := by
    rintro error rfl
    exact ⟨call, by rw [made]; exact List.mem_singleton_self _⟩

theorem append {first : Except δ β} {result : Except ε α} {firstCause : δ → IoError}
    (before : Traced allowed firstCause first events) (after : Traced allowed cause result later) :
    Traced allowed cause result (events ++ later) where
  calls := by
    intro event member
    rcases List.mem_append.mp member with inFirst | inLater
    · exact before.calls event inFirst
    · exact after.calls event inLater
  blamed := by
    intro error failed
    obtain ⟨call, member⟩ := after.blamed error failed
    exact ⟨call, List.mem_append_right _ member⟩

theorem closed {result : Except ε α} (traced : Traced allowed cause result events)
    (allows : allowed .close) : Traced allowed cause result (events ++ [.call .close none]) where
  calls := by
    intro event member
    rcases List.mem_append.mp member with inEvents | isClose
    · exact traced.calls event inEvents
    · exact ⟨.close, none, List.mem_singleton.mp isClose, allows⟩
  blamed := by
    intro error failed
    obtain ⟨call, member⟩ := traced.blamed error failed
    exact ⟨call, List.mem_append_left _ member⟩

theorem failed {error : ε} {other : δ} {otherCause : δ → IoError}
    (before : Traced allowed cause (.error error : Except ε α) events)
    (same : otherCause other = cause error) :
    Traced allowed otherCause (.error other : Except δ β) events where
  calls := before.calls
  blamed := by
    rintro _ ⟨⟩
    rw [same]
    exact before.blamed error rfl

theorem mapError {change : ε → δ} {changed : δ → IoError} {given : Except ε α}
    (traced : Traced allowed cause given events)
    (same : ∀ error, changed (change error) = cause error) :
    Traced allowed changed (given.mapError change) events := by
  cases given with
  | ok value => exact ⟨traced.calls, by simp⟩
  | error error => exact traced.failed (same error)

end Traced

namespace Records

section traced

variable {p r : Type → Type} [Monad p] [Monad r] {S R : Type} [Stateful p S] [Stateful r R]
  {ε δ α β : Type} {join : List Event → S → R} {allowed : Call → Prop} {cause : ε → IoError}

theorem traced_bind {first : ExceptT ε p α} {firstRecording : ExceptT ε r α}
    {next : α → ExceptT ε p β} {nextRecording : α → ExceptT ε r β}
    (before : Records join (Traced allowed cause) first firstRecording)
    (after : ∀ value, Records join (Traced allowed cause) (next value) (nextRecording value)) :
    Records join (Traced allowed cause) (first >>= next) (firstRecording >>= nextRecording) := by
  refine before.bind ?_ ?_
  · intro value events traced
    exact (after value).mono fun result later holds => traced.append holds
  · intro error events traced
    exact traced.failed rfl

theorem traced_adapt {body : ExceptT ε p α} {recording : ExceptT ε r α}
    (records : Records join (Traced allowed cause) body recording) (change : ε → δ)
    (changed : δ → IoError) (same : ∀ error, changed (change error) = cause error) :
    Records join (Traced allowed changed) (ExceptT.adapt change body)
      (ExceptT.adapt change recording) := by
  refine records.adapt.mono ?_
  rintro _ events ⟨given, traced, rfl⟩
  exact traced.mapError same

/-- An error that is caught may be thrown again: the call that is to blame for it was recorded. -/
theorem traced_catch {body : ExceptT ε p α} {recording : ExceptT ε r α}
    {next : Except ε α → ExceptT ε p β} {nextRecording : Except ε α → ExceptT ε r β}
    (records : Records join (Traced allowed cause) body recording)
    (after : ∀ given, Records join (fun result events => Traced allowed cause result events ∨
        events = [] ∧ ∃ error, given = .error error ∧ result = .error error)
      (next given) (nextRecording given)) :
    Records join (Traced allowed cause) (ChunkStore.outcome body >>= next)
      (ChunkStore.outcome recording >>= nextRecording) := by
  refine records.outcome.bind ?_ ?_
  · rintro value events ⟨given, traced, same⟩
    obtain rfl := Except.ok.inj same
    refine (after value).mono ?_
    rintro result later (holds | ⟨rfl, error, rfl, rfl⟩)
    · exact traced.append holds
    · rw [List.append_nil]
      exact traced.failed rfl
  · rintro error events ⟨given, _, impossible⟩
    exact absurd impossible (by simp)

end traced

end Records

section tracing

variable {m : Type → Type} [Monad m] {σ : Type} [Stateful m σ] {ε τ α : Type}
  {allowed : Call → Prop} {cause : ε → IoError}

theorem traced_noted (call : Call) (allows : allowed call) (body : ExceptT IoError m α) :
    RecordsOver (Traced allowed id) body (noted (.call call) body) :=
  (records_noted _ body).mono fun _ _ made => .single allows made

theorem traced_noted_with (call : Call) (allows : allowed call)
    (body : ExceptT IoError (StateT τ m) α) :
    RecordsBelow (Traced allowed id) body (notedWith (.call call) body) :=
  (records_noted_with _ body).mono fun _ _ made => .single allows made

theorem traced_lift (body : m α) :
    RecordsOver (Traced allowed cause) (ExceptT.lift body : ExceptT ε m α)
      (ExceptT.lift (StateT.lift body)) := by
  intro state
  have lifted (record : List Event) : (StateT.lift body : StateT (List Event) m α) record =
      body >>= fun value => pure (value, record) := rfl
  rw [RecordsAt, perform_lift]
  refine ⟨[], .ok _, fun record => ?_⟩
  rw [perform_lift, List.append_nil]
  simp only [exec, lifted, exec_bind, exec_pure]

variable {Reader Writer : Type} (files : FileSystem m Reader Writer)

theorem traced_reading (wrap : IoError → ε) (same : ∀ error, cause (wrap error) = error)
    (path : Path) (allows : allowed (.openReader path))
    {body : Nat → ExceptT ε (StateT Reader m) α}
    {recording : Nat → ExceptT ε (StateT Reader (StateT (List Event) m)) α}
    (inner : ∀ patience,
      RecordsBelow (Traced allowed cause) (body patience) (recording patience)) :
    RecordsOver (Traced allowed cause) (files.reading wrap path body)
      (files.recorded.reading wrap path recording) := by
  intro state
  obtain ⟨events, made, asked⟩ := records_noted (.call (.openReader path))
    (files.openReader path) state
  have opened : ∀ record, perform (files.recorded.openReader path) (record, state) = _ := asked
  rw [RecordsAt, perform_reading]
  cases result : perform (files.openReader path) state with
  | mk answer after =>
      rw [result] at opened made
      cases answer with
      | error error =>
          refine ⟨events, (Traced.single allows made).failed (same error), fun record => ?_⟩
          rw [perform_reading, opened]
      | ok reader =>
          obtain ⟨later, traced, read⟩ := inner (files.patience reader + 1) (reader, after)
          refine ⟨events ++ later, (Traced.single allows made).append traced, fun record => ?_⟩
          rw [perform_reading, opened]
          simp only
          rw [show files.recorded.patience reader = files.patience reader from rfl,
            read (record ++ events), List.append_assoc]

theorem exec_recorded_close (writer : Writer) (record : List Event) (state : σ) :
    exec (files.recorded.close writer) (record, state) =
      ((), record ++ [.call .close none], (exec (files.close writer) state).2) := by
  have closed : files.recorded.close writer record =
      files.close writer >>= fun _ => pure ((), record ++ [.call .close none]) := rfl
  simp only [exec, closed, exec_bind, exec_pure]

theorem traced_closing (writer : Writer) (allows : allowed .close)
    {body : ExceptT ε (StateT Writer m) α}
    {recording : ExceptT ε (StateT Writer (StateT (List Event) m)) α}
    (inner : RecordsBelow (Traced allowed cause) body recording) :
    RecordsOver (Traced allowed cause)
      (ExceptT.mk do
        let (result, after) ← body.run.run writer
        files.close after
        pure result)
      (ExceptT.mk do
        let (result, after) ← recording.run.run writer
        files.recorded.close after
        pure result) := by
  intro state
  obtain ⟨events, traced, written⟩ := inner (writer, state)
  refine ⟨events ++ [.call .close none], ?_, fun record => ?_⟩
  · simp only [perform_mk, exec_bind, exec_run, exec_pure]
    exact traced.closed allows
  · have same := written record
    simp only [perform_mk, exec_bind, exec_run, exec_pure, same, exec_recorded_close,
      List.append_assoc]

end tracing

end ChunkStore
