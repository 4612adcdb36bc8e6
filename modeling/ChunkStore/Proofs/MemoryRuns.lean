import ChunkStore.Proofs.Building
import ChunkStore.Proofs.MemoryFiles
import ChunkStore.Proofs.MemoryHistory
import Mathlib.Data.List.ReduceOption

/-!
Runs of operations on the files in memory, with any number of writers open at a time, and the past
that each run leaves behind. The past is enough to tell what every file holds: the last event that
concerns its place decides, be it a publication there or a deletion at the place or above it.
-/

namespace ChunkStore.Memory

set_option autoImplicit false

open Stateful

/-! Operations -/

/-- A call of the file system, of its set-up or of a writer. Writers are numbered in the order in
which they are opened. -/
inductive Operation
  | addFile (path : Path) (contents : Bytes)
  | addDirectory (path : Path)
  | failReads (path : Path)
  | create (path : Path)
  | createDirectories (path : Path)
  | delete (path : Path)
  | write (number : Nat) (piece : Bytes)
  | flush (number : Nat)
  | close (number : Nat)
deriving DecidableEq, Repr

/-- A run so far: the tree, the writers by their numbers, none in the place of one that is closed,
and the operations that were carried out, the latest first. Those that were refused are no part of
the past. -/
structure Running where
  tree : Tree
  writers : List (Option Writer)
  past : List Operation

namespace Running

def start : Running := ⟨.empty, [], []⟩

def writer? (running : Running) (number : Nat) : Option Writer := running.writers[number]?.join

def record {α : Type} (running : Running) (operation : Operation) :
    Except IoError α → List Operation
  | .ok _ => operation :: running.past
  | .error _ => running.past

/-- A call of a writer, which does nothing where no writer is open under the number. -/
def calling (running : Running) (operation : Operation) (number : Nat)
    (call : ExceptT IoError (StateT Writer (StateM Tree)) Unit) : Running :=
  match running.writer? number with
  | none => running
  | some writer =>
      let (answer, after, tree) := perform call (writer, running.tree)
      ⟨tree, running.writers.set number (some after), running.record operation answer⟩

def step (running : Running) (operation : Operation) : Running :=
  match operation with
  | .addFile path contents =>
      ⟨running.tree.addFile path contents, running.writers, operation :: running.past⟩
  | .addDirectory path =>
      ⟨running.tree.ensureDirectories path, running.writers, operation :: running.past⟩
  | .failReads path => ⟨running.tree.failReads path, running.writers, operation :: running.past⟩
  | .create path =>
      let (answer, tree) := perform (files.create path) running.tree
      ⟨tree, running.writers ++ answer.toOption.toList.map some, running.record operation answer⟩
  | .createDirectories path =>
      let (answer, tree) := perform (files.createDirectories path) running.tree
      ⟨tree, running.writers, running.record operation answer⟩
  | .delete path =>
      let (answer, tree) := perform (files.deleteTree path) running.tree
      ⟨tree, running.writers, running.record operation answer⟩
  | .write number piece => running.calling operation number (files.write piece)
  | .flush number => running.calling operation number files.flush
  | .close number =>
      match running.writer? number with
      | none => running
      | some writer =>
          let (_, tree) := exec (files.close writer) running.tree
          ⟨tree, running.writers.set number none, operation :: running.past⟩

def after (operations : List Operation) : Running := operations.foldl step start

theorem after_concat (operations : List Operation) (operation : Operation) :
    after (operations ++ [operation]) = (after operations).step operation := by
  rw [after, List.foldl_concat]
  rfl

theorem slot_of_writer {running : Running} {number : Nat} {writer : Writer}
    (isOpen : running.writer? number = some writer) :
    running.writers[number]? = some (some writer) := by
  rwa [writer?, Option.join_eq_some_iff] at isOpen

theorem set_same {running : Running} {number : Nat} {writer : Writer}
    (isOpen : running.writer? number = some writer) :
    running.writers.set number (some writer) = running.writers := by
  obtain ⟨bound, found⟩ := List.getElem?_eq_some_iff.mp (slot_of_writer isOpen)
  rw [← found, List.set_getElem_self]

theorem after_take_succ {operations : List Operation} {moment : Nat} {operation : Operation}
    (here : operations[moment]? = some operation) :
    after (operations.take (moment + 1)) = (after (operations.take moment)).step operation := by
  rw [List.take_add_one, here, Option.toList_some, after_concat]

def publishing? (running : Running) : Operation → Option Writer
  | .flush number | .close number => running.writer? number
  | _ => none

/-- What a step can do. An operation that is refused changes nothing, and a writer that is open is
never refused. -/
inductive Effect (running : Running) : Operation → Running → Prop
  | addFile (path : Path) (contents : Bytes) :
      Effect running (.addFile path contents)
        ⟨running.tree.addFile path contents, running.writers,
          .addFile path contents :: running.past⟩
  | addDirectory (path : Path) :
      Effect running (.addDirectory path)
        ⟨running.tree.ensureDirectories path, running.writers, .addDirectory path :: running.past⟩
  | failReads (path : Path) :
      Effect running (.failReads path)
        ⟨running.tree.failReads path, running.writers, .failReads path :: running.past⟩
  | create (path : Path) (tree : Tree) (made : running.tree.create path = .ok tree) :
      Effect running (.create path)
        ⟨tree, running.writers ++ [some (.opened path)], .create path :: running.past⟩
  | createDirectories (path : Path) (tree : Tree)
      (made : running.tree.createDirectories path = .ok tree) :
      Effect running (.createDirectories path)
        ⟨tree, running.writers, .createDirectories path :: running.past⟩
  | delete (path : Path) :
      Effect running (.delete path)
        ⟨running.tree.delete path, running.writers, .delete path :: running.past⟩
  | write (number : Nat) (piece : Bytes) (writer : Writer)
      (isOpen : running.writer? number = some writer) :
      Effect running (.write number piece)
        ⟨running.tree, running.writers.set number (some (writer.write piece)),
          .write number piece :: running.past⟩
  | flush (number : Nat) (writer : Writer) (isOpen : running.writer? number = some writer) :
      Effect running (.flush number)
        ⟨running.tree.publish writer, running.writers, .flush number :: running.past⟩
  | close (number : Nat) (writer : Writer) (isOpen : running.writer? number = some writer) :
      Effect running (.close number)
        ⟨running.tree.publish writer, running.writers.set number none,
          .close number :: running.past⟩
  | refused (operation : Operation) (silent : running.publishing? operation = none) :
      Effect running operation running

theorem step_effect (running : Running) (operation : Operation) :
    Effect running operation (running.step operation) := by
  cases operation with
  | addFile path contents => exact .addFile path contents
  | addDirectory path => exact .addDirectory path
  | failReads path => exact .failReads path
  | create path =>
      rw [step, perform_create]
      cases made : running.tree.create path with
      | error error =>
          simp only [record, Except.toOption, Option.toList, List.map_nil, List.append_nil]
          exact .refused _ rfl
      | ok tree => exact .create path tree made
  | createDirectories path =>
      rw [step, perform_create_directories]
      cases made : running.tree.createDirectories path with
      | error error => exact .refused _ rfl
      | ok tree => exact .createDirectories path tree made
  | delete path => exact .delete path
  | write number piece =>
      rw [step, calling]
      cases isOpen : running.writer? number with
      | none => exact .refused _ rfl
      | some writer => exact .write number piece writer isOpen
  | flush number =>
      rw [step, calling]
      cases isOpen : running.writer? number with
      | none => exact .refused _ isOpen
      | some writer =>
          have same := set_same isOpen
          simp only [perform_flush, same]
          exact .flush number writer isOpen
  | close number =>
      rw [step]
      cases isOpen : running.writer? number with
      | none => exact .refused _ isOpen
      | some writer => exact .close number writer isOpen

/-! Open writers -/

def openWriters (running : Running) : List Writer := running.writers.reverse.reduceOption

/-- An open writer stands somewhere among the open writers, and changing what its number leads to
changes nothing else. -/
theorem open_writers_at {running : Running} {number : Nat} {writer : Writer}
    (isOpen : running.writer? number = some writer) :
    ∃ front back, running.openWriters = front ++ writer :: back ∧
      ∀ other : Option Writer, (running.writers.set number other).reverse.reduceOption =
        front ++ other.toList ++ back := by
  obtain ⟨bound, _⟩ := List.getElem?_eq_some_iff.mp (slot_of_writer isOpen)
  have setting (other : Option Writer) : (running.writers.set number other).reverse.reduceOption =
      (running.writers.drop (number + 1)).reverse.reduceOption ++ other.toList ++
        (running.writers.take number).reverse.reduceOption := by
    rw [List.set_eq_take_append_cons_drop, if_pos bound, List.reverse_append, List.reverse_cons,
      List.reduceOption_append, List.reduceOption_append, List.reduceOption_singleton]
  refine ⟨_, _, ?_, setting⟩
  rw [openWriters, ← set_same isOpen, setting, set_same isOpen]
  simp

theorem run_step {running : Running} (run : Run ⟨running.tree, running.openWriters⟩)
    (operation : Operation) :
    Run ⟨(running.step operation).tree, (running.step operation).openWriters⟩ := by
  have effect := step_effect running operation
  generalize running.step operation = next at effect
  cases effect with
  | addFile path contents => exact .next run (.addFile _ path contents)
  | addDirectory path => exact .next run (.addDirectory _ path)
  | failReads path => exact .next run (.failReads _ path)
  | create path tree made =>
      have opened : (running.writers ++ [some (Writer.opened path)]).reverse.reduceOption =
          Writer.opened path :: running.openWriters := by
        rw [List.reverse_append]
        rfl
      rw [openWriters, opened]
      exact .next run (.create _ path tree made)
  | createDirectories path tree made => exact .next run (.createDirectories _ path tree made)
  | delete path => exact .next run (.delete _ path)
  | write number piece writer isOpen =>
      obtain ⟨front, back, split, setting⟩ := open_writers_at isOpen
      rw [openWriters, setting, Option.toList_some, List.append_assoc, List.singleton_append]
      rw [split] at run
      exact .next run (.write _ front back writer piece)
  | flush number writer isOpen =>
      obtain ⟨front, back, split, _⟩ := open_writers_at isOpen
      exact .next run (.flush _ writer (by rw [split]; simp))
  | close number writer isOpen =>
      obtain ⟨front, back, split, setting⟩ := open_writers_at isOpen
      rw [openWriters, setting, Option.toList_none, List.append_nil]
      rw [split] at run
      exact .next run (.close _ front back writer)
  | refused => exact run

theorem reachable_after (operations : List Operation) : (after operations).tree.Reachable := by
  refine ⟨(after operations).openWriters, ?_⟩
  induction operations using List.reverseRecOn with
  | nil => exact .start
  | append_singleton operations operation induction =>
      rw [after_concat]
      exact run_step induction operation

end Running

/-! The past -/

namespace Past

def opened : List Operation → List Path
  | [] => []
  | .create path :: earlier => opened earlier ++ [path]
  | _ :: earlier => opened earlier

def written (number : Nat) : List Operation → Bytes
  | [] => []
  | .write other piece :: earlier =>
      if other = number then written number earlier ++ piece else written number earlier
  | _ :: earlier => written number earlier

/-- What can happen to the contents of a place. -/
inductive Event
  | published (path : Path) (contents : Bytes)
  | deleted (path : Path)
deriving DecidableEq, Repr

namespace Event

/-- A publication concerns its own place, a deletion every place at its path or below. -/
def concerns (path : Path) : Event → Bool
  | published place _ => path.same place
  | deleted place => path.startsWith place

def contents? : Event → Option Bytes
  | published _ contents => some contents
  | deleted _ => none

end Event

/-- The event of an operation. A file is published with its contents when it is added, with none
when it is created, and with everything written so far when a writer is flushed or closed. -/
def event? (earlier : List Operation) : Operation → Option Event
  | .addFile path contents => some (.published path contents)
  | .create path => some (.published path [])
  | .flush number | .close number =>
      (opened earlier)[number]?.map fun path => .published path (written number earlier)
  | .delete path => some (.deleted path)
  | .addDirectory _ | .failReads _ | .createDirectories _ | .write _ _ => none

def events : List Operation → List Event
  | [] => []
  | operation :: earlier => (event? earlier operation).toList ++ events earlier

def lastEvent? (past : List Operation) (path : Path) : Option Event :=
  (events past).find? (·.concerns path)

theorem last_event_cons (operation : Operation) (earlier : List Operation) (path : Path) :
    lastEvent? (operation :: earlier) path =
      ((event? earlier operation).filter (·.concerns path)).or (lastEvent? earlier path) := by
  rw [lastEvent?, events, List.find?_append, lastEvent?]
  congr 1
  cases event? earlier operation <;> simp [Option.filter]

def contentsAt (past : List Operation) (path : Path) : Option Bytes :=
  (lastEvent? past path).bind Event.contents?

theorem contents_at_quiet {operation : Operation} {earlier : List Operation}
    (quiet : event? earlier operation = none) (path : Path) :
    contentsAt (operation :: earlier) path = contentsAt earlier path := by
  rw [contentsAt, last_event_cons, quiet, Option.filter_none, Option.none_or, contentsAt]

theorem contents_at_published {operation : Operation} {earlier : List Operation} {place : Path}
    {contents : Bytes} (event : event? earlier operation = some (.published place contents))
    (path : Path) :
    contentsAt (operation :: earlier) path =
      if path.same place then some contents else contentsAt earlier path := by
  rw [contentsAt, last_event_cons, event, contentsAt]
  by_cases here : path.same place = true <;> simp [Option.filter, Event.concerns, here,
    Event.contents?]

theorem contents_at_deleted {operation : Operation} {earlier : List Operation} {place : Path}
    (event : event? earlier operation = some (.deleted place)) (path : Path) :
    contentsAt (operation :: earlier) path =
      if path.startsWith place then none else contentsAt earlier path := by
  rw [contentsAt, last_event_cons, event, contentsAt]
  by_cases here : path.startsWith place = true <;> simp [Option.filter, Event.concerns, here,
    Event.contents?]

/-- A place holds contents exactly when the last event that concerns it is their publication. -/
theorem contents_at_iff (past : List Operation) (path : Path) (contents : Bytes) :
    contentsAt past path = some contents ↔
      ∃ place, lastEvent? past path = some (.published place contents) := by
  rw [contentsAt]
  cases lastEvent? past path with
  | none => simp
  | some event => cases event <;> simp [Event.contents?]

end Past

/-! What a run keeps in its tree and its writers -/

namespace Tree

theorem contents_put (tree : Tree) (path other : Path) (contents : Bytes) :
    (tree.putFile path contents).contents? other =
      if other.same path then some contents else tree.contents? other := by
  rw [contents?, contents?, node_put]
  split <;> rfl

theorem contents_parents (tree : Tree) (path other : Path) :
    (tree.withParents path).contents? other = tree.contents? other := by
  unfold withParents
  cases path.parent? with
  | none => rfl
  | some parent => exact contents_ensure tree parent other

theorem contents_add (tree : Tree) (path other : Path) (contents : Bytes) :
    (tree.addFile path contents).contents? other =
      if other.same path then some contents else tree.contents? other := by
  have shape : tree.addFile path contents = (tree.withParents path).putFile path contents := rfl
  rw [shape, contents_put, contents_parents]

theorem contents_create {tree after : Tree} {path : Path} (made : tree.create path = .ok after)
    (other : Path) :
    after.contents? other = if other.same path then some [] else tree.contents? other := by
  rw [(create_ok made).1, contents_put, contents_parents]

end Tree

/-! Writers by the past -/

namespace Past

/-- The writers of a run are those that its past tells of, with what was written to them. -/
structure TellsOf (past : List Operation) (writers : List (Option Writer)) : Prop where
  numbered : writers.length = (opened past).length
  unopened : ∀ number, (opened past).length ≤ number → written number past = []
  writer : ∀ number writer, writers[number]? = some (some writer) →
    (opened past)[number]? = some writer.path ∧ writer.written = written number past

namespace TellsOf

variable {past : List Operation} {writers : List (Option Writer)} {number : Nat} {writer : Writer}

theorem quiet (tells : TellsOf past writers) {operation : Operation}
    (opens : opened (operation :: past) = opened past)
    (writes : ∀ number, written number (operation :: past) = written number past) :
    TellsOf (operation :: past) writers where
  numbered := opens ▸ tells.numbered
  unopened number beyond := by
    rw [writes]
    exact tells.unopened number (opens ▸ beyond)
  writer number writer isOpen := by
    rw [opens, writes]
    exact tells.writer number writer isOpen

theorem close (tells : TellsOf past writers) (number : Nat) :
    TellsOf (.close number :: past) (writers.set number none) where
  numbered := by rw [List.length_set]; exact tells.numbered
  unopened := tells.unopened
  writer other writer isOpen := by
    rw [List.getElem?_set] at isOpen
    split at isOpen
    · split at isOpen <;> exact absurd isOpen (by simp)
    · exact tells.writer other writer isOpen

theorem create (tells : TellsOf past writers) (path : Path) :
    TellsOf (.create path :: past) (writers ++ [some (.opened path)]) where
  numbered := by
    rw [opened, List.length_append, List.length_append, tells.numbered]
    rfl
  unopened number beyond := by
    rw [opened, List.length_append] at beyond
    exact tells.unopened number (by omega)
  writer number writer isOpen := by
    rw [opened]
    by_cases earlier : number < writers.length
    · rw [List.getElem?_append_left earlier] at isOpen
      rw [List.getElem?_append_left (tells.numbered ▸ earlier)]
      exact tells.writer number writer isOpen
    · rw [List.getElem?_append_right (by omega)] at isOpen
      obtain ⟨bound, same⟩ := List.getElem?_eq_some_iff.mp isOpen
      have last : number = (opened past).length := by
        rw [← tells.numbered]
        rw [List.length_singleton] at bound
        omega
      rw [List.getElem_singleton, Option.some.injEq] at same
      rw [← same]
      refine ⟨by simp [last, Writer.opened], ?_⟩
      exact (tells.unopened number (by omega)).symm

theorem write (tells : TellsOf past writers) (isOpen : writers[number]? = some (some writer))
    (piece : Bytes) :
    TellsOf (.write number piece :: past) (writers.set number (some (writer.write piece))) where
  numbered := by rw [List.length_set]; exact tells.numbered
  unopened other beyond := by
    obtain ⟨bound, _⟩ := List.getElem?_eq_some_iff.mp isOpen
    have before : number < (opened past).length := tells.numbered ▸ bound
    have apart : number ≠ other := by
      intro same
      exact absurd (same ▸ beyond) (Nat.not_le.mpr before)
    rw [written, if_neg apart]
    exact tells.unopened other beyond
  writer other found isFound := by
    rw [List.getElem?_set] at isFound
    rw [written]
    split at isFound
    · rename_i same
      subst same
      split at isFound
      · rw [Option.some.injEq, Option.some.injEq] at isFound
        obtain ⟨place, before⟩ := tells.writer number writer isOpen
        rw [← isFound, if_pos rfl, Memory.Writer.written_write, before]
        exact ⟨place, rfl⟩
      · exact absurd isFound (by simp)
    · rename_i apart
      rw [if_neg apart]
      exact tells.writer other found isFound

/-- A flush and a close publish, at the path of the writer, everything that was written to it. -/
theorem event (tells : TellsOf past writers) (isOpen : writers[number]? = some (some writer)) :
    event? past (.flush number) = some (.published writer.path writer.written) := by
  obtain ⟨place, contents⟩ := tells.writer number writer isOpen
  rw [event?, place, Option.map_some, contents]

end TellsOf

end Past

namespace Running

open Past

structure Faithful (running : Running) : Prop where
  writers : TellsOf running.past running.writers
  contents : ∀ path, running.tree.contents? path = contentsAt running.past path

theorem faithful_start : start.Faithful where
  writers := ⟨rfl, fun _ _ => rfl, fun number writer isOpen => by simp [start] at isOpen⟩
  contents _ := rfl

/-- Publishing at a path does to the files what the event of the operation says. -/
theorem published {running : Running} (faithful : running.Faithful) {operation : Operation}
    {place : Path} {contents : Bytes}
    (event : event? running.past operation = some (.published place contents)) (path : Path) :
    (running.tree.putFile place contents).contents? path =
      contentsAt (operation :: running.past) path := by
  rw [Tree.contents_put, faithful.contents, contents_at_published event]

theorem faithful_step {running : Running} (faithful : running.Faithful) (operation : Operation) :
    (running.step operation).Faithful := by
  have effect := step_effect running operation
  generalize running.step operation = next at effect
  cases effect with
  | addFile path contents =>
      refine ⟨faithful.writers.quiet rfl fun _ => rfl, fun other => ?_⟩
      rw [Tree.contents_add, faithful.contents, contents_at_published rfl]
  | addDirectory path =>
      refine ⟨faithful.writers.quiet rfl fun _ => rfl, fun other => ?_⟩
      rw [Tree.contents_ensure, faithful.contents, contents_at_quiet rfl]
  | failReads path =>
      refine ⟨faithful.writers.quiet rfl fun _ => rfl, fun other => ?_⟩
      rw [contents_at_quiet rfl]
      exact faithful.contents other
  | create path tree made =>
      refine ⟨faithful.writers.create path, fun other => ?_⟩
      rw [Tree.contents_create made, faithful.contents, contents_at_published rfl]
  | createDirectories path tree made =>
      refine ⟨faithful.writers.quiet rfl fun _ => rfl, fun other => ?_⟩
      rw [(Tree.create_directories_ok made).1, Tree.contents_ensure, faithful.contents,
        contents_at_quiet rfl]
  | delete path =>
      refine ⟨faithful.writers.quiet rfl fun _ => rfl, fun other => ?_⟩
      rw [Tree.contents_delete, faithful.contents, contents_at_deleted rfl]
  | write number piece writer isOpen =>
      refine ⟨faithful.writers.write (slot_of_writer isOpen) piece, fun other => ?_⟩
      rw [contents_at_quiet rfl]
      exact faithful.contents other
  | flush number writer isOpen =>
      have event := faithful.writers.event (slot_of_writer isOpen)
      exact ⟨faithful.writers.quiet rfl fun _ => rfl, published faithful event⟩
  | close number writer isOpen =>
      have event := faithful.writers.event (slot_of_writer isOpen)
      exact ⟨faithful.writers.close number, published faithful event⟩
  | refused => exact faithful

theorem faithful_after (operations : List Operation) : (after operations).Faithful := by
  induction operations using List.reverseRecOn with
  | nil => exact faithful_start
  | append_singleton operations operation induction =>
      rw [after_concat]
      exact faithful_step induction operation

end Running

end ChunkStore.Memory
