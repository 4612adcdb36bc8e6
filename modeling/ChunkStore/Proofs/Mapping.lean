import ChunkStore.Job.Local
import ChunkStore.Proofs.MemoryFiles

/-!
What mapping gives. The lines of a file are the pieces between its line feeds, a carriage return
at the end of one left out; those that are not empty are mapped in order, and what comes out is
routed by the partitioner. How the file is cut into pieces while it is read plays no part.
-/

namespace ChunkStore.Local

set_option autoImplicit false

open Stateful

/-! One after the other -/

section turns

variable {α ε σ : Type}

/-- Takes elements in turn, numbered from the first one on, up to the first that fails. -/
def inTurn (step : Nat → α → σ → Except ε σ) : Nat → List α → σ → Except ε σ
  | _, [], state => .ok state
  | number, element :: rest, state =>
      match step number element state with
      | .error error => .error error
      | .ok next => inTurn step (number + 1) rest next

variable {step : Nat → α → σ → Except ε σ} {passes : α → Prop} {fails : Nat → α → ε → Prop}

/-- Where each element passes or fails whatever was taken before, all are taken if all pass. -/
theorem in_turn_ok_iff (passing : ∀ number element state,
      (∃ next, step number element state = .ok next) ↔ passes element)
    (number : Nat) (elements : List α) (state : σ) :
    (∃ last, inTurn step number elements state = .ok last) ↔
      ∀ element ∈ elements, passes element := by
  induction elements generalizing number state with
  | nil => simp [inTurn]
  | cons first rest induction =>
      rw [inTurn, List.forall_mem_cons, ← passing number first state]
      cases taken : step number first state with
      | error raised => simp
      | ok next =>
          rw [induction (number + 1) next]
          simp

theorem in_turn_error_iff (passing : ∀ number element state,
      (∃ next, step number element state = .ok next) ↔ passes element)
    (failing : ∀ number element state error,
      step number element state = .error error ↔ fails number element error)
    (number : Nat) (elements : List α) (state : σ) (error : ε) :
    inTurn step number elements state = .error error ↔
      ∃ front element back, elements = front ++ element :: back ∧
        (∀ earlier ∈ front, passes earlier) ∧ fails (number + front.length) element error := by
  induction elements generalizing number state with
  | nil => simp [inTurn]
  | cons first rest induction =>
      rw [inTurn]
      constructor
      · intro failed
        cases taken : step number first state with
        | error raised =>
            rw [taken] at failed
            have refused := (failing number first state raised).mp taken
            rw [Except.error.inj failed] at refused
            exact ⟨[], first, rest, rfl, by simp, refused⟩
        | ok next =>
            rw [taken] at failed
            rcases (induction (number + 1) next).mp failed with
              ⟨front, element, back, split, before, refused⟩
            refine ⟨first :: front, element, back, by rw [split, List.cons_append], ?_, ?_⟩
            · exact List.forall_mem_cons.mpr ⟨(passing number first state).mp ⟨next, taken⟩, before⟩
            · rwa [List.length_cons, Nat.add_comm front.length, ← Nat.add_assoc]
      · rintro ⟨front, element, back, split, before, refused⟩
        cases front with
        | nil =>
            rw [List.nil_append, List.cons.injEq] at split
            rw [split.1, (failing number element state error).mpr refused]
        | cons head front =>
            rw [List.cons_append, List.cons.injEq] at split
            rw [List.forall_mem_cons, ← split.1] at before
            rcases (passing number first state).mpr before.1 with ⟨next, taken⟩
            rw [taken]
            apply (induction (number + 1) next).mpr
            rw [List.length_cons, Nat.add_comm front.length, ← Nat.add_assoc] at refused
            exact ⟨front, element, back, split.2, before.2, refused⟩

end turns

/-! Lines -/

def withoutReturn (line : Bytes) : Bytes :=
  if line.getLast? = some 13 then line.dropLast else line

def fullLines (contents : Bytes) : List Bytes :=
  ((contents.splitOn Source.lineFeed).map withoutReturn).filter fun line => !line.isEmpty

theorem trim_line_end_of_plain {line : Bytes} (plain : Source.lineFeed ∉ line) :
    trimLineEnd line = withoutReturn line := by
  have unended : line.getLast? ≠ some 10 := by
    intro ended
    exact plain (List.mem_of_getLast? ended)
  rw [trimLineEnd, if_neg unended]
  rfl

theorem trim_line_end_of_feed (line : Bytes) :
    trimLineEnd (line ++ [Source.lineFeed]) = withoutReturn line := by
  have ended : (line ++ [Source.lineFeed]).getLast? = some 10 := List.getLast?_concat
  simp only [trimLineEnd, if_pos ended, List.dropLast_concat]
  rfl

theorem feedless_of_split {bytes line : Bytes} (member : line ∈ bytes.splitOn Source.lineFeed) :
    Source.lineFeed ∉ line := by
  induction bytes generalizing line with
  | nil => simp_all
  | cons byte rest induction =>
      rw [List.splitOn_cons_eq_if_modifyHead] at member
      by_cases atFeed : (byte == Source.lineFeed) = true
      · rw [if_pos atFeed] at member
        rcases List.mem_cons.mp member with rfl | later
        · exact List.not_mem_nil
        · exact induction later
      · rw [if_neg atFeed] at member
        cases split : rest.splitOn Source.lineFeed with
        | nil => exact absurd split (List.splitOn_ne_nil _ _)
        | cons first others =>
            rw [split] at member induction
            rcases List.mem_cons.mp member with rfl | later
            · rw [List.mem_cons, not_or]
              exact ⟨fun same => atFeed (by simp [same]), induction List.mem_cons_self⟩
            · exact induction (List.mem_cons_of_mem first later)

theorem trim_of_split {bytes line : Bytes} (member : line ∈ bytes.splitOn Source.lineFeed) :
    trimLineEnd line = withoutReturn line :=
  trim_line_end_of_plain (feedless_of_split member)

theorem full_lines_of_plain {line : Bytes} (plain : Source.lineFeed ∉ line) :
    fullLines line = [withoutReturn line].filter fun line => !line.isEmpty := by
  rw [fullLines, List.splitOn_eq_singleton plain, List.map_singleton]

theorem full_lines_at_feed {front : Bytes} (plain : Source.lineFeed ∉ front) (rest : Bytes) :
    fullLines (front ++ Source.lineFeed :: rest) =
      ([withoutReturn front].filter fun line => !line.isEmpty) ++ fullLines rest := by
  rw [fullLines, List.splitOn_append_cons_self_of_not_mem plain, List.map_cons, fullLines,
    ← List.singleton_append, List.filter_append]

/-! Mapping the lines of one file -/

def keptOf (transform : Transform) (lines : List Bytes) : List Record :=
  lines.filterMap fun line =>
    match transform.apply line with
    | .ok (some record) => some record
    | _ => none

def routedBy (job : JobSpec) (record : Record) : Routed :=
  ⟨job.partitioner.partition record.key job.reduceTasks, record⟩

/-- What mapping some lines adds: every line counts, and what comes out is routed in range. -/
structure Adds (job : JobSpec) (lines : List Bytes) (before after : Mapped) : Prop where
  recordsIn : after.recordsIn = before.recordsIn + lines.length
  routed : after.routed.reverse =
    before.routed.reverse ++ (keptOf job.transform lines).map (routedBy job)
  inRange : ∀ record ∈ keptOf job.transform lines,
    (routedBy job record).partition < job.reduceTasks

theorem Adds.nothing (job : JobSpec) (mapped : Mapped) : Adds job [] mapped mapped where
  recordsIn := rfl
  routed := (List.append_nil _).symm
  inRange := by simp [keptOf]

theorem Adds.trans {job : JobSpec} {first second : List Bytes} {before middle after : Mapped}
    (earlier : Adds job first before middle) (later : Adds job second middle after) :
    Adds job (first ++ second) before after where
  recordsIn := by
    rw [later.recordsIn, earlier.recordsIn, List.length_append, Nat.add_assoc]
  routed := by
    rw [later.routed, earlier.routed, keptOf, keptOf, keptOf, List.filterMap_append,
      List.map_append, List.append_assoc]
  inRange := by
    intro record member
    rw [keptOf, List.filterMap_append] at member
    rcases List.mem_append.mp member with inFirst | inSecond
    · exact earlier.inRange record inFirst
    · exact later.inRange record inSecond

theorem route_ok {job : JobSpec} {record : Record} {routed : Routed}
    (done : route job record = .ok routed) :
    routed = routedBy job record ∧ (routedBy job record).partition < job.reduceTasks := by
  unfold route at done
  by_cases inside : job.partitioner.partition record.key job.reduceTasks < job.reduceTasks
  · simp only [inside, if_true] at done
    exact ⟨(Except.ok.inj done).symm, inside⟩
  · simp [inside] at done

theorem map_line_ok {job : JobSpec} {path : Path} {number : Nat} {record : Bytes}
    {result : Option Routed} (done : mapLine job path number record = .ok result) :
    (job.transform.apply record = .ok none ∧ result = none) ∨
      ∃ kept, job.transform.apply record = .ok (some kept) ∧ result = some (routedBy job kept) ∧
        (routedBy job kept).partition < job.reduceTasks := by
  unfold mapLine at done
  cases applied : job.transform.apply record with
  | error reason =>
      rw [applied] at done
      cases done
  | ok mapped =>
      rw [applied] at done
      cases mapped with
      | none => exact Or.inl ⟨rfl, (Except.ok.inj done).symm⟩
      | some kept =>
          right
          cases routing : route job kept with
          | error error =>
              simp only [routing] at done
              cases done
          | ok routed =>
              simp only [routing] at done
              obtain ⟨same, inside⟩ := route_ok routing
              exact ⟨kept, rfl, same ▸ (Except.ok.inj done).symm, inside⟩

theorem add_line_ok {job : JobSpec} {path : Path} {number : Nat} {line : Bytes}
    {before after : Mapped} (done : addLine job path number line before = .ok after) :
    Adds job ([trimLineEnd line].filter fun line => !line.isEmpty) before after := by
  unfold addLine at done
  by_cases empty : (trimLineEnd line).isEmpty = true
  · simp only [empty, if_true, Except.ok.injEq] at done
    rw [done, List.filter_cons_of_neg (by simp [empty])]
    exact Adds.nothing job after
  · simp only [empty] at done
    rw [List.filter_cons_of_pos (by simpa using empty), List.filter_nil]
    cases mapped : mapLine job path number (trimLineEnd line) with
    | error error =>
        rw [mapped] at done
        cases done
    | ok result =>
        rw [mapped] at done
        rw [← Except.ok.inj done]
        rcases map_line_ok mapped with ⟨dropped, rfl⟩ | ⟨record, applied, rfl, inside⟩
        · have noneKept : keptOf job.transform [trimLineEnd line] = [] := by
            simp [keptOf, dropped]
          exact ⟨rfl, by simp [noneKept], by simp [noneKept]⟩
        · have oneKept : keptOf job.transform [trimLineEnd line] = [record] := by
            simp [keptOf, applied]
          refine ⟨rfl, by simp [oneKept], ?_⟩
          intro other member
          rw [oneKept, List.mem_singleton] at member
          rw [member]
          exact inside

/-- Lines that could be added in turn add those that are not empty. -/
theorem in_turn_adds {job : JobSpec} {path : Path} {number : Nat} {lines : List Bytes}
    {before after : Mapped} (done : inTurn (addLine job path) number lines before = .ok after) :
    Adds job ((lines.map trimLineEnd).filter fun line => !line.isEmpty) before after := by
  induction lines generalizing number before with
  | nil =>
      rw [← Except.ok.inj done]
      exact Adds.nothing job before
  | cons line rest induction =>
      rw [inTurn] at done
      cases added : addLine job path number line before with
      | error error =>
          rw [added] at done
          cases done
      | ok middle =>
          rw [added] at done
          rw [List.map_cons, ← List.singleton_append, List.filter_append]
          exact (add_line_ok added).trans (induction done)

theorem lines_add {job : JobSpec} {path : Path} {number : Nat} {bytes : Bytes}
    {before after : Mapped}
    (done : inTurn (addLine job path) number (bytes.splitOn Source.lineFeed) before = .ok after) :
    Adds job (fullLines bytes) before after := by
  have adds := in_turn_adds done
  rwa [List.map_congr_left fun _ => trim_of_split, ← fullLines] at adds

theorem add_line_congr {line other : Bytes} (same : trimLineEnd line = trimLineEnd other)
    (job : JobSpec) (path : Path) (number : Nat) (mapped : Mapped) :
    addLine job path number line mapped = addLine job path number other mapped := by
  rw [addLine, addLine, same]

theorem add_lines_of_cut (job : JobSpec) (path : Path) (number : Nat) (bytes : Bytes)
    (mapped : Mapped) :
    inTurn (addLine job path) number (bytes.splitOn Source.lineFeed) mapped =
      match addLine job path number (Source.cutLine bytes).1 mapped with
      | .error error => .error error
      | .ok more =>
          inTurn (addLine job path) (number + 1)
            ((Source.cutLine bytes).2.splitOn Source.lineFeed) more := by
  rcases Source.span_line_feed bytes with ⟨front, back, _, whole, plain, noFeed | ⟨rest, atFeed⟩⟩
  · rw [noFeed, List.append_nil] at whole
    have cut : Source.cutLine bytes = (bytes, []) := by
      have cut := Source.cut_line_of_front (whole ▸ plain) []
      rwa [List.append_nil, Source.cutLine, List.append_nil] at cut
    rw [cut, List.splitOn_eq_singleton (whole ▸ plain), inTurn]
    cases addLine job path number bytes mapped <;> rfl
  · rw [atFeed] at whole
    have cut : Source.cutLine bytes = (front ++ [Source.lineFeed], rest) := by
      rw [whole, Source.cut_line_at_feed plain]
    have unended : trimLineEnd (front ++ [Source.lineFeed]) = trimLineEnd front := by
      rw [trim_line_end_of_feed, trim_line_end_of_plain plain]
    rw [cut, whole, List.splitOn_append_cons_self_of_not_mem plain, inTurn,
      add_line_congr unended]
    cases addLine job path number front mapped <;> rfl

theorem cut_line_present {bytes : Bytes} (present : bytes ≠ []) :
    (Source.cutLine bytes).1 ≠ [] := by
  cases bytes with
  | nil => exact absurd rfl present
  | cons byte rest =>
      rw [Source.cutLine]
      split <;> exact List.cons_ne_nil _ _

section lines

variable {m : Type → Type} [Monad m] {σ : Type} [Stateful m σ] {source : Source m}
  {ahead : Bytes → σ → Prop}

/-- To map a source is to add its lines in turn. -/
theorem map_lines_eq (delivers : source.Delivers ahead) {job : JobSpec} {path : Path}
    (room : 0 < job.bufferSize) (patience steps number : Nat) (bytes : Bytes) (before : Mapped)
    (state : Bytes × σ) (holds : Source.heldAhead ahead bytes state)
    (patient : bytes.length ≤ patience) (enough : bytes.length ≤ steps) :
    (perform (mapLines job path source patience steps number before) state).1 =
      inTurn (addLine job path) number (bytes.splitOn Source.lineFeed) before := by
  have nothing : ∀ number before,
      inTurn (addLine job path) number (([] : Bytes).splitOn Source.lineFeed) before = .ok before :=
    fun _ _ => rfl
  induction steps generalizing number bytes before state with
  | zero =>
      have none : bytes = [] := List.length_eq_zero_iff.mp (Nat.le_zero.mp enough)
      rw [mapLines, perform_pure, none, nothing]
  | succ steps induction =>
      obtain ⟨next, read, ready⟩ :=
        Source.line_delivers delivers room patience bytes state holds patient
      have adapted : perform ((source.line job.bufferSize patience).adapt EngineError.io) state =
          (.ok (Source.cutLine bytes).1, next) := by
        rw [perform_adapt, read]
        rfl
      rw [mapLines, perform_bind_ok adapted]
      by_cases present : bytes = []
      · have ended : (Source.cutLine bytes).1.isEmpty = true := by
          rw [present]
          rfl
        rw [if_pos ended, perform_pure, present, nothing]
      · have lineFull := cut_line_present present
        rw [if_neg (by simpa using lineFull), add_lines_of_cut job path number bytes]
        cases addLine job path number (Source.cutLine bytes).1 before with
        | error error => simp only [perform_throw]
        | ok middle =>
            have shorter : (Source.cutLine bytes).2.length < bytes.length := by
              have split := congrArg List.length (Source.cut_line_append bytes)
              have positive := List.length_pos_iff.mpr lineFull
              rw [List.length_append] at split
              omega
            exact induction (number + 1) (Source.cutLine bytes).2 middle next ready (by omega)
              (by omega)

/-- What mapping a source adds are its full lines. -/
theorem map_lines_ok (delivers : source.Delivers ahead) {job : JobSpec} {path : Path}
    (room : 0 < job.bufferSize) (patience steps number : Nat) (bytes : Bytes)
    (before after : Mapped) (state final : Bytes × σ)
    (holds : Source.heldAhead ahead bytes state) (patient : bytes.length ≤ patience)
    (enough : bytes.length ≤ steps)
    (done : perform (mapLines job path source patience steps number before) state =
      (.ok after, final)) :
    Adds job (fullLines bytes) before after := by
  have lines : inTurn (addLine job path) number (bytes.splitOn Source.lineFeed) before =
      .ok after := by
    rw [← map_lines_eq delivers room patience steps number bytes before state holds patient enough,
      done]
  exact lines_add lines

end lines

/-! Mapping files -/

theorem keeps_map_lines {m : Type → Type} [Monad m] {σ : Type} [Stateful m σ] {source : Source m}
    {inv : σ → Prop} (keeps : ∀ size, Keeps inv (source size)) (job : JobSpec) (path : Path)
    (patience steps number : Nat) (mapped : Mapped) :
    Keeps (fun state => inv state.2) (mapLines job path source patience steps number mapped) := by
  induction steps generalizing number mapped with
  | zero => exact keeps_pure _
  | succ steps induction =>
      unfold mapLines
      apply keeps_bind (keeps_adapt _ (Source.keeps_line keeps _ _))
      intro line
      split
      · exact keeps_pure _
      · split
        · exact keeps_throw _
        · exact induction _ _

theorem perform_through_buffer {m : Type → Type} [Monad m] {σ ε α : Type} [Stateful m σ]
    (body : ExceptT ε (StateT Bytes m) α) (state : σ) :
    perform (throughBuffer body) state =
      ((perform body ([], state)).1, (perform body ([], state)).2.2) := by
  rw [throughBuffer, perform_mk, exec_bind, exec_run, exec_pure]

theorem keeps_through_buffer {m : Type → Type} [Monad m] {σ ε α : Type} [Stateful m σ]
    (inv : σ → Prop) {body : ExceptT ε (StateT Bytes m) α}
    (keeps : Keeps (fun state : Bytes × σ => inv state.2) body) :
    Keeps inv (throughBuffer body) := by
  intro state holds
  rw [perform_through_buffer]
  exact keeps ([], state) holds

section memory

open Memory

theorem keeps_map_file (inv : Tree → Prop) (job : JobSpec) (path : Path) (mapped : Mapped) :
    Keeps inv (mapFile files job path mapped) := by
  apply keeps_reading files EngineError.io path _ (keeps_open inv path)
  intro patience
  exact keeps_through_buffer (fun state : Reader × Tree => inv state.2)
    (keeps_map_lines (keeps_read inv) job path patience patience 1 mapped)

theorem keeps_map_files (inv : Tree → Prop) (job : JobSpec) (paths : List Path)
    (mapped : Mapped) : Keeps inv (mapFiles files job paths mapped) := by
  induction paths generalizing mapped with
  | nil => exact keeps_pure _
  | cons path rest induction =>
      unfold mapFiles
      exact keeps_bind (keeps_map_file inv job path mapped) fun mapped => induction mapped

theorem map_lines_failing (job : JobSpec) (path : Path) (patience steps number : Nat)
    (mapped : Mapped) (tree : Tree) :
    (perform (mapLines job path files.read (patience + 1) (steps + 1) number mapped)
      ([], .failing, tree)).1 = .error (.io (.other "injected read failure")) := by
  have filled : perform (Source.fill files.read job.bufferSize) ([], .failing, tree) =
      (.error (.other "injected read failure"), [], .failing, tree) := by
    rw [Source.fill, perform_bind, perform_get]
    simp only [perform_bind, perform_below, perform_read, Reader.read]
  have refused : perform (Source.line files.read job.bufferSize (patience + 1))
      ([], .failing, tree) = (.error (.other "injected read failure"), [], .failing, tree) := by
    rw [Source.line, Source.collectLine, perform_bind, perform_outcome, filled]
    rfl
  rw [mapLines, perform_bind, perform_adapt, refused]
  rfl

theorem map_file_ok {job : JobSpec} {path : Path} {before after : Mapped} {tree final : Tree}
    (room : 0 < job.bufferSize)
    (done : perform (mapFile files job path before) tree = (.ok after, final)) :
    ∃ contents, tree.Readable path contents ∧ Adds job (fullLines contents) before after := by
  obtain ⟨contents, readable, result, _⟩ := reading_ok
    (by rw [perform_through_buffer, map_lines_failing]; simp) done
  refine ⟨contents, readable, ?_⟩
  rw [perform_through_buffer] at result
  exact map_lines_ok (reader_delivers tree) room (contents.length + 1) (contents.length + 1) 1
    contents before after ([], .rest contents, tree) _
    (Source.held_ahead_of_empty rfl) (Nat.le_succ _) (Nat.le_succ _) (Prod.ext result rfl)

def linesOf (tree : Tree) (paths : List Path) : List Bytes :=
  paths.flatMap fun path => fullLines ((tree.contents? path).getD [])

theorem map_files_ok {job : JobSpec} {paths : List Path} {before after : Mapped}
    {tree final : Tree} (room : 0 < job.bufferSize)
    (done : perform (mapFiles files job paths before) tree = (.ok after, final)) :
    final = tree ∧ Adds job (linesOf tree paths) before after := by
  induction paths generalizing before with
  | nil =>
      rw [mapFiles, perform_pure, Prod.mk.injEq, Except.ok.injEq] at done
      rw [← done.1]
      exact ⟨done.2.symm, Adds.nothing job before⟩
  | cons path rest induction =>
      rw [mapFiles, perform_bind] at done
      have kept := tree_of_keeps (fun inv => keeps_map_file inv job path before) tree
      rw [kept] at done
      cases first : (perform (mapFile files job path before) tree).1 with
      | error error =>
          rw [first] at done
          exact absurd (congrArg Prod.fst done) (by simp)
      | ok middle =>
          rw [first] at done kept
          obtain ⟨contents, readable, adds⟩ := map_file_ok room kept
          obtain ⟨same, addsRest⟩ := induction done
          refine ⟨same, ?_⟩
          rw [linesOf, List.flatMap_cons, readable.1]
          exact adds.trans addsRest

end memory

end ChunkStore.Local
