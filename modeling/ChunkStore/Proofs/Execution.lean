import ChunkStore.FileSystem

/-!
Running computations on states. A computation of a file system in memory, of a reader or writer
above it, or of a buffer above those, is a function on one state that holds the states of all
layers; running it obeys one law for each way in which computations are put together.
-/

namespace ChunkStore

set_option autoImplicit false

/-- A monad whose computations are functions on a state. -/
class Stateful (m : Type → Type) [Monad m] (σ : outParam Type) where
  exec {α : Type} : m α → σ → α × σ
  exec_pure {α : Type} (value : α) (state : σ) : exec (pure value : m α) state = (value, state)
  exec_bind {α β : Type} (first : m α) (next : α → m β) (state : σ) :
    exec (first >>= next) state = exec (next (exec first state).1) (exec first state).2
  exec_map {α β : Type} (change : α → β) (body : m α) (state : σ) :
    exec (change <$> body) state = (change (exec body state).1, (exec body state).2)

namespace Stateful

instance instState {σ : Type} : Stateful (StateM σ) σ where
  exec body state := body state
  exec_pure _ _ := rfl
  exec_bind _ _ _ := rfl
  exec_map _ _ _ := rfl

variable {m : Type → Type} [Monad m] {σ τ ε δ α β : Type}

instance instLayer [Stateful m σ] : Stateful (StateT τ m) (τ × σ) where
  exec body state :=
    let result := exec (body state.1) state.2
    (result.1.1, result.1.2, result.2)
  exec_pure value state := by
    change (_, _, _) = _
    rw [show (pure value : StateT τ m _) state.1 = pure (value, state.1) from rfl, exec_pure]
  exec_bind first next state := by
    rw [show (first >>= next) state.1 = first state.1 >>= fun pair => next pair.1 pair.2 from rfl,
      exec_bind]
  exec_map change body state := by
    rw [show (change <$> body) state.1 =
      body state.1 >>= fun pair => pure (change pair.1, pair.2) from rfl, exec_bind, exec_pure]

def perform [Stateful m σ] (body : ExceptT ε m α) (state : σ) : Except ε α × σ :=
  exec body.run state

theorem perform_eq_run (body : ExceptT ε (StateM σ) α) (state : σ) :
    perform body state = body.run.run state := rfl

variable [Stateful m σ]

@[simp] theorem perform_mk (body : m (Except ε α)) (state : σ) :
    perform (ExceptT.mk body) state = exec body state := rfl

@[simp] theorem perform_pure (value : α) (state : σ) :
    perform (pure value : ExceptT ε m α) state = (.ok value, state) := exec_pure _ _

@[simp] theorem perform_throw (error : ε) (state : σ) :
    perform (throw error : ExceptT ε m α) state = (.error error, state) := exec_pure _ _

theorem perform_bind (first : ExceptT ε m α) (next : α → ExceptT ε m β) (state : σ) :
    perform (first >>= next) state =
      match perform first state with
      | (.ok value, after) => perform (next value) after
      | (.error error, after) => (.error error, after) := by
  rw [perform, ExceptT.run_bind, exec_bind]
  unfold perform
  cases exec first.run state with
  | mk result after =>
      cases result with
      | ok value => rfl
      | error error => exact exec_pure _ _

theorem perform_bind_ok {first : ExceptT ε m α} {state after : σ} {value : α}
    (done : perform first state = (.ok value, after)) (next : α → ExceptT ε m β) :
    perform (first >>= next) state = perform (next value) after := by
  rw [perform_bind, done]

theorem perform_bind_error {first : ExceptT ε m α} {state after : σ} {error : ε}
    (failed : perform first state = (.error error, after)) (next : α → ExceptT ε m β) :
    perform (first >>= next) state = (.error error, after) := by
  rw [perform_bind, failed]

@[simp] theorem perform_lift (body : m α) (state : σ) :
    perform (ExceptT.lift body : ExceptT ε m α) state =
      (.ok (exec body state).1, (exec body state).2) :=
  exec_map _ _ _

@[simp] theorem perform_outcome (body : ExceptT ε m α) (state : σ) :
    perform (outcome body) state = (.ok (perform body state).1, (perform body state).2) :=
  perform_lift _ _

@[simp] theorem map_error_ok (change : ε → δ) (value : α) :
    (Except.ok value : Except ε α).mapError change = .ok value := rfl

@[simp] theorem map_error_error (change : ε → δ) (error : ε) :
    (Except.error error : Except ε α).mapError change = .error (change error) := rfl

@[simp] theorem perform_adapt (change : ε → δ) (body : ExceptT ε m α) (state : σ) :
    perform (ExceptT.adapt change body) state =
      ((perform body state).1.mapError change, (perform body state).2) :=
  exec_map _ _ _

/-- Computations that only ask are asked one after the other, up to the first that fails. -/
theorem perform_mapM_asking {step : α → ExceptT ε m β} {answer : α → Except ε β}
    {elements : List α} {state : σ}
    (asks : ∀ element ∈ elements, perform (step element) state = (answer element, state)) :
    perform (elements.mapM step) state = (elements.mapM answer, state) := by
  have loop (found : List β) :
      perform (List.mapM.loop step elements found) state =
        (List.mapM.loop answer elements found, state) := by
    induction elements generalizing found with
    | nil => exact perform_pure _ _
    | cons element rest induction =>
        rw [List.forall_mem_cons] at asks
        rw [List.mapM.loop, List.mapM.loop, perform_bind, asks.1]
        cases answer element with
        | error error => rfl
        | ok value => exact induction asks.2 (value :: found)
  exact loop []

theorem bind_ok {first : ExceptT ε m α} {next : α → ExceptT ε m β} {state after : σ} {result : β}
    (done : perform (first >>= next) state = (.ok result, after)) :
    ∃ value between, perform first state = (.ok value, between) ∧
      perform (next value) between = (.ok result, after) := by
  rw [perform_bind] at done
  cases begun : perform first state with
  | mk outcome between =>
      rw [begun] at done
      cases outcome with
      | error error => exact absurd (congrArg Prod.fst done) (by simp)
      | ok value => exact ⟨value, between, rfl, done⟩

theorem adapt_ok {change : ε → δ} {body : ExceptT ε m α} {state after : σ} {value : α}
    (done : perform (ExceptT.adapt change body) state = (.ok value, after)) :
    perform body state = (.ok value, after) := by
  rw [perform_adapt] at done
  cases begun : perform body state with
  | mk outcome between =>
      rw [begun] at done
      cases outcome with
      | error error => exact absurd (congrArg Prod.fst done) (by simp)
      | ok given =>
          simp only [map_error_ok, Prod.mk.injEq, Except.ok.injEq] at done
          rw [done.1, done.2]

theorem exists_ok {result : Except ε α} (isOk : result.isOk = true) :
    ∃ value, result = .ok value := by
  cases result with
  | error error => exact absurd isOk (by simp [Except.isOk, Except.toBool])
  | ok value => exact ⟨value, rfl⟩

/-! Layers -/

theorem exec_run (body : ExceptT ε (StateT τ m) α) (state : τ) (rest : σ) :
    exec (body.run.run state) rest =
      (((perform body (state, rest)).1, (perform body (state, rest)).2.1),
        (perform body (state, rest)).2.2) := rfl

@[simp] theorem perform_state (body : τ → m (Except ε α × τ)) (state : τ) (rest : σ) :
    perform (ExceptT.mk body : ExceptT ε (StateT τ m) α) (state, rest) =
      ((exec (body state) rest).1.1, (exec (body state) rest).1.2, (exec (body state) rest).2) :=
  rfl

@[simp] theorem perform_below (body : ExceptT ε m α) (state : τ) (rest : σ) :
    perform (below body : ExceptT ε (StateT τ m) α) (state, rest) =
      ((perform body rest).1, state, (perform body rest).2) := by
  have lifted : (StateT.lift body.run : StateT τ m _) state =
      body.run >>= fun result => pure (result, state) := rfl
  rw [below, perform_state, lifted, exec_bind, exec_pure]
  rfl

@[simp] theorem perform_onPart {Whole Part : Type} (part : Whole → Part)
    (replace : Whole → Part → Whole) (body : ExceptT ε (StateT Part m) α) (whole : Whole)
    (rest : σ) :
    perform (onPart part replace body) (whole, rest) =
      ((perform body (part whole, rest)).1,
        replace whole (perform body (part whole, rest)).2.1,
        (perform body (part whole, rest)).2.2) := by
  rw [onPart, perform_state, exec_bind, exec_run, exec_pure]

@[simp] theorem perform_get (state : τ) (rest : σ) :
    perform (get : ExceptT ε (StateT τ m) τ) (state, rest) = (.ok state, state, rest) := by
  have read : (get : ExceptT ε (StateT τ m) τ) = ExceptT.lift (get : StateT τ m τ) := rfl
  have answered : (get : StateT τ m τ) state = pure (state, state) := rfl
  rw [read, perform_lift]
  simp only [exec, answered, exec_pure]

@[simp] theorem perform_set (value state : τ) (rest : σ) :
    perform (set value : ExceptT ε (StateT τ m) PUnit) (state, rest) =
      (.ok PUnit.unit, value, rest) := by
  have written : (set value : ExceptT ε (StateT τ m) PUnit) =
      ExceptT.lift (set value : StateT τ m PUnit) := rfl
  have answered : (set value : StateT τ m PUnit) state = pure (PUnit.unit, value) := rfl
  rw [written, perform_lift]
  simp only [exec, answered, exec_pure]

@[simp] theorem perform_modify (change : τ → τ) (state : τ) (rest : σ) :
    perform (modify change : ExceptT ε (StateT τ m) PUnit) (state, rest) =
      (.ok PUnit.unit, change state, rest) := by
  have written : (modify change : ExceptT ε (StateT τ m) PUnit) =
      ExceptT.lift (modify change : StateT τ m PUnit) := rfl
  have answered : (modify change : StateT τ m PUnit) state =
      pure (PUnit.unit, change state) := rfl
  rw [written, perform_lift]
  simp only [exec, answered, exec_pure]

/-! What is kept -/

/-- Whatever comes of a computation, a property of states outlives it. -/
def Keeps (inv : σ → Prop) (body : ExceptT ε m α) : Prop :=
  ∀ state, inv state → inv (perform body state).2

section keeps

variable {inv : σ → Prop}

theorem keeps_pure (value : α) : Keeps inv (pure value : ExceptT ε m α) := by
  intro state holds
  rwa [perform_pure]

theorem keeps_throw (error : ε) : Keeps inv (throw error : ExceptT ε m α) := by
  intro state holds
  rwa [perform_throw]

theorem keeps_bind {first : ExceptT ε m α} {next : α → ExceptT ε m β} (before : Keeps inv first)
    (after : ∀ value, Keeps inv (next value)) : Keeps inv (first >>= next) := by
  intro state holds
  have middle := before state holds
  rw [perform_bind]
  cases result : perform first state with
  | mk outcome between =>
      rw [result] at middle
      cases outcome with
      | ok value => exact after value between middle
      | error error => exact middle

theorem keeps_outcome {body : ExceptT ε m α} (keeps : Keeps inv body) :
    Keeps inv (outcome body) := by
  intro state holds
  rw [perform_outcome]
  exact keeps state holds

theorem keeps_adapt {body : ExceptT ε m α} (change : ε → δ) (keeps : Keeps inv body) :
    Keeps inv (ExceptT.adapt change body) := by
  intro state holds
  rw [perform_adapt]
  exact keeps state holds

theorem keeps_lift {body : m α} (keeps : ∀ state, inv state → inv (exec body state).2) :
    Keeps inv (ExceptT.lift body : ExceptT ε m α) := by
  intro state holds
  rw [perform_lift]
  exact keeps state holds

theorem keeps_below {body : ExceptT ε m α} (keeps : Keeps inv body) :
    Keeps (fun state : τ × σ => inv state.2) (below body) := by
  rintro ⟨state, rest⟩ holds
  rw [perform_below]
  exact keeps rest holds

theorem keeps_get : Keeps (fun state : τ × σ => inv state.2)
    (get : ExceptT ε (StateT τ m) τ) := by
  rintro ⟨state, rest⟩ holds
  rwa [perform_get]

theorem keeps_set (value : τ) : Keeps (fun state : τ × σ => inv state.2)
    (set value : ExceptT ε (StateT τ m) PUnit) := by
  rintro ⟨state, rest⟩ holds
  rwa [perform_set]

end keeps

/-! Files -/

variable {Reader Writer : Type}

theorem perform_reading (files : FileSystem m Reader Writer) (wrap : IoError → ε) (path : Path)
    (body : Nat → ExceptT ε (StateT Reader m) α) (state : σ) :
    perform (files.reading wrap path body) state =
      match perform (files.openReader path) state with
      | (.error error, after) => (.error (wrap error), after)
      | (.ok reader, after) =>
          ((perform (body (files.patience reader + 1)) (reader, after)).1,
            (perform (body (files.patience reader + 1)) (reader, after)).2.2) := by
  rw [FileSystem.reading, perform_bind, perform_adapt]
  cases perform (files.openReader path) state with
  | mk result after =>
      cases result with
      | error error => rfl
      | ok reader =>
          simp only [map_error_ok, perform_mk, exec_bind, exec_run, exec_pure]

theorem keeps_reading {inv : σ → Prop} (files : FileSystem m Reader Writer) (wrap : IoError → ε)
    (path : Path) (body : Nat → ExceptT ε (StateT Reader m) α)
    (opening : Keeps inv (files.openReader path))
    (keeps : ∀ patience, Keeps (fun state => inv state.2) (body patience)) :
    Keeps inv (files.reading wrap path body) := by
  intro state holds
  have opened := opening state holds
  rw [perform_reading]
  cases result : perform (files.openReader path) state with
  | mk outcome after =>
      rw [result] at opened
      cases outcome with
      | error error => exact opened
      | ok reader => exact keeps _ (reader, after) opened

end Stateful

end ChunkStore
