import ChunkStore.Proofs.MapFailures

/-!
Text as input. A record is a line of key, tab and value, and a line ends with a line feed that may
have a carriage return before it. Mapping reads back exactly the records that were written so, and
it accepts exactly the files whose lines all have a tab, those that are empty aside.
-/

namespace ChunkStore

set_option autoImplicit false

open Stateful

/-! Keys, tabs and values -/

def Record.joined (record : Record) : Bytes := record.key ++ Transform.tab :: record.value

namespace Transform

theorem tab_separated_joined {record : Record} (tabless : tab ∉ record.key) :
    tabSeparated.apply record.joined = .ok (some record) := by
  have front : ∀ byte ∈ record.key, (byte != tab) = true := by
    intro byte member
    have other : byte ≠ tab := by
      rintro rfl
      exact tabless member
    simpa using other
  simp only [tabSeparated, Record.joined, List.span_eq_takeWhile_dropWhile]
  rw [List.dropWhile_append_of_pos front, List.takeWhile_append_of_pos front]
  simp

theorem tab_separated_of_tab {line : Bytes} (tabbed : tab ∈ line) :
    ∃ record : Record, tabSeparated.apply line = .ok (some record) ∧ record.joined = line ∧
      tab ∉ record.key := by
  rcases Source.span_mark tab line with ⟨front, back, _, whole, tabless, noTab | ⟨rest, atTab⟩⟩
  · rw [noTab, List.append_nil] at whole
    exact absurd (whole ▸ tabbed) tabless
  · rw [atTab] at whole
    have same : Record.joined ⟨front, rest⟩ = line := whole.symm
    exact ⟨⟨front, rest⟩, same ▸ tab_separated_joined tabless, same, tabless⟩

theorem tab_separated_ok_iff (line : Bytes) :
    (∃ kept, tabSeparated.apply line = .ok kept) ↔ tab ∈ line := by
  constructor
  · rintro ⟨kept, accepted⟩
    rcases Source.span_mark tab line with ⟨front, back, spanned, whole, _, noTab | ⟨rest, atTab⟩⟩
    · unfold tabSeparated at accepted
      simp only [spanned, noTab] at accepted
      cases accepted
    · rw [whole, atTab]
      simp
  · intro tabbed
    rcases tab_separated_of_tab tabbed with ⟨record, accepted, _⟩
    exact ⟨some record, accepted⟩

end Transform

namespace Local

theorem kept_of_joined {records : List Record}
    (tabless : ∀ record ∈ records, Transform.tab ∉ record.key) :
    keptOf .tabSeparated (records.map Record.joined) = records := by
  induction records with
  | nil => rfl
  | cons record rest induction =>
      rw [List.forall_mem_cons] at tabless
      have accepted := Transform.tab_separated_joined tabless.1
      rw [keptOf, List.map_cons, List.filterMap_cons, accepted]
      exact congrArg (record :: ·) (induction tabless.2)

theorem joined_kept {lines : List Bytes} (tabbed : ∀ line ∈ lines, Transform.tab ∈ line) :
    (keptOf .tabSeparated lines).map Record.joined = lines ∧
      ∀ record ∈ keptOf .tabSeparated lines, Transform.tab ∉ record.key := by
  induction lines with
  | nil => simp [keptOf]
  | cons line rest induction =>
      rw [List.forall_mem_cons] at tabbed
      rcases Transform.tab_separated_of_tab tabbed.1 with ⟨record, accepted, same, tabless⟩
      rcases induction tabbed.2 with ⟨joined, keys⟩
      have kept : keptOf .tabSeparated (line :: rest) = record :: keptOf .tabSeparated rest := by
        rw [keptOf, List.filterMap_cons, accepted, keptOf]
      rw [kept, List.map_cons, joined, same]
      exact ⟨rfl, List.forall_mem_cons.mpr ⟨tabless, keys⟩⟩

/-! Lines -/

theorem forall_full_lines (contents : Bytes) (holds : Bytes → Prop) :
    (∀ full ∈ fullLines contents, holds full) ↔
      ∀ line ∈ contents.splitOn Source.lineFeed,
        withoutReturn line = [] ∨ holds (withoutReturn line) := by
  rw [fullLines]
  simp only [List.mem_filter, List.mem_map, Bool.not_eq_true', List.isEmpty_eq_false_iff]
  constructor
  · intro all line member
    by_cases empty : withoutReturn line = []
    · exact Or.inl empty
    · exact Or.inr (all _ ⟨⟨line, member, rfl⟩, empty⟩)
  · rintro all _ ⟨⟨line, member, rfl⟩, full⟩
    exact (all line member).resolve_left full

theorem bucket_append (first second : List Routed) (partition : UInt32) :
    bucket (first ++ second) partition = bucket first partition ++ bucket second partition := by
  rw [bucket, List.filter_append, List.map_append, bucket, bucket]

theorem Adds.only_bucket {job : JobSpec} {lines : List Bytes} {before after : Mapped}
    (adds : Adds job lines before after) (single : job.reduceTasks = 1) :
    bucket after.routed.reverse 0 =
      bucket before.routed.reverse 0 ++ keptOf job.transform lines := by
  have first : ∀ record ∈ keptOf job.transform lines, (routedBy job record).partition = 0 := by
    intro record member
    have inside := adds.inRange record member
    rw [single, UInt32.lt_iff_toNat_lt] at inside
    exact UInt32.toNat_inj.mp (Nat.lt_one_iff.mp inside)
  rw [adds.routed, bucket_append]
  congr 1
  rw [bucket, List.filter_eq_self.mpr, List.map_map]
  · exact List.map_id _
  · intro routed member
    rcases List.mem_map.mp member with ⟨record, kept, rfl⟩
    simpa using first record kept

/-! Reading text -/

/-- A job that reads lines of text into one partition, to which its partitioner keeps as it must. -/
structure ReadsText (job : JobSpec) : Prop where
  tabbed : job.transform = .tabSeparated
  single : job.reduceTasks = 1
  ranged : ∀ key, job.partitioner.partition key 1 < 1
  room : 0 < job.bufferSize

theorem ReadsText.passes_iff {job : JobSpec} (text : ReadsText job) (line : Bytes) :
    Passes job line ↔ trimLineEnd line = [] ∨ Transform.tab ∈ trimLineEnd line := by
  have inside (record : Record) : (routedBy job record).partition < job.reduceTasks := by
    rw [routedBy, text.single]
    exact text.ranged record.key
  rw [Passes, text.tabbed, or_iff_not_imp_left, ← Transform.tab_separated_ok_iff]
  apply imp_congr_right
  intro _
  exact exists_congr fun kept => and_iff_left fun record _ => inside record

section files

variable {m : Type → Type} [Monad m] {σ Reader Writer : Type} [Stateful m σ]
  {files : FileSystem m Reader Writer} {job : JobSpec} {path : Path} {contents : Bytes} {state : σ}

/-- A file of text is mapped just when every full line of it has a tab. -/
theorem map_text_ok_iff (text : ReadsText job) (delivers : files.Delivers path contents state)
    (before : Mapped) :
    (∃ after, (perform (mapFile files job path before) state).1 = .ok after) ↔
      ∀ full ∈ fullLines contents, Transform.tab ∈ full := by
  rw [map_file_delivers delivers text.room, in_turn_ok_iff (add_line_passes job path),
    forall_full_lines]
  apply forall₂_congr
  intro line member
  rw [text.passes_iff, trim_of_split member]

theorem map_text_gives (text : ReadsText job) (delivers : files.Delivers path contents state)
    {before after : Mapped}
    (done : (perform (mapFile files job path before) state).1 = .ok after) :
    after.recordsIn = before.recordsIn + (fullLines contents).length ∧
      bucket after.routed.reverse 0 =
        bucket before.routed.reverse 0 ++ keptOf .tabSeparated (fullLines contents) := by
  rw [map_file_delivers delivers text.room] at done
  have adds := lines_add done
  exact ⟨adds.recordsIn, text.tabbed ▸ adds.only_bucket text.single⟩

end files

end Local

/-! Written text -/

/-- A record that can be written as a line: the first tab of the line ends its key, and the line
ends where its value does. -/
structure Record.Plain (record : Record) : Prop where
  tabless : Transform.tab ∉ record.key
  keyFeedless : Source.lineFeed ∉ record.key
  valueFeedless : Source.lineFeed ∉ record.value
  unreturned : record.value.getLast? ≠ some 13

instance (record : Record) : Decidable record.Plain :=
  decidable_of_iff (Transform.tab ∉ record.key ∧ Source.lineFeed ∉ record.key ∧
      Source.lineFeed ∉ record.value ∧ record.value.getLast? ≠ some 13)
    ⟨fun ⟨tabless, keyFeedless, valueFeedless, unreturned⟩ =>
        ⟨tabless, keyFeedless, valueFeedless, unreturned⟩,
      fun ⟨tabless, keyFeedless, valueFeedless, unreturned⟩ =>
        ⟨tabless, keyFeedless, valueFeedless, unreturned⟩⟩

/-- What ends a line: a line feed, with or without a carriage return before it. -/
inductive LineEnd
  | feed
  | returnFeed
deriving DecidableEq, Repr

def LineEnd.beforeFeed : LineEnd → Bytes
  | feed => []
  | returnFeed => [13]

structure TextLine where
  record : Option Record
  plain : ∀ written ∈ record, written.Plain
  ending : LineEnd

namespace TextLine

def text (line : TextLine) : Bytes :=
  match line.record with
  | some record => record.joined
  | none => []

/-- The lines one after the other, the last one with its end or without it. -/
def write (ended : Bool) : List TextLine → Bytes
  | [] => []
  | line :: rest =>
      if ended || !rest.isEmpty then
        line.text ++ line.ending.beforeFeed ++ Source.lineFeed :: write ended rest
      else line.text

def records (lines : List TextLine) : List Record := lines.filterMap (·.record)

theorem text_feedless (line : TextLine) : Source.lineFeed ∉ line.text := by
  rw [text]
  cases found : line.record with
  | none => exact List.not_mem_nil
  | some record =>
      have plain := line.plain record found
      simp only [Record.joined, List.mem_append, List.mem_cons, not_or]
      exact ⟨plain.keyFeedless, by decide, plain.valueFeedless⟩

theorem text_unreturned (line : TextLine) : line.text.getLast? ≠ some 13 := by
  rw [text]
  cases found : line.record with
  | none => simp
  | some record =>
      have plain := line.plain record found
      simp only [Record.joined]
      cases value : record.value with
      | nil => simp [Transform.tab]
      | cons first rest =>
          have unreturned := plain.unreturned
          rw [value] at unreturned
          simpa [List.getLast?_append] using unreturned

theorem without_return_text (line : TextLine) :
    Local.withoutReturn line.text = line.text :=
  if_neg line.text_unreturned

theorem without_return_ended (line : TextLine) :
    Local.withoutReturn (line.text ++ line.ending.beforeFeed) = line.text := by
  cases line.ending with
  | feed =>
      rw [LineEnd.beforeFeed, List.append_nil]
      exact line.without_return_text
  | returnFeed =>
      rw [LineEnd.beforeFeed, Local.withoutReturn, if_pos List.getLast?_concat,
        List.dropLast_concat]

theorem ended_feedless (line : TextLine) :
    Source.lineFeed ∉ line.text ++ line.ending.beforeFeed := by
  rw [List.mem_append, not_or]
  refine ⟨line.text_feedless, ?_⟩
  cases line.ending <;> decide

theorem full_text (line : TextLine) :
    ([line.text].filter fun text => !text.isEmpty) = (records [line]).map Record.joined := by
  rw [records, text]
  cases found : line.record with
  | none => simp [found]
  | some record => simp [found, Record.joined]

theorem full_lines_write (ended : Bool) (lines : List TextLine) :
    Local.fullLines (write ended lines) = (records lines).map Record.joined := by
  induction lines with
  | nil => rfl
  | cons line rest induction =>
      have split : records (line :: rest) = records [line] ++ records rest :=
        List.filterMap_append (l := [line])
      rw [write, split, List.map_append, ← full_text]
      by_cases terminated : (ended || !rest.isEmpty) = true
      · rw [if_pos terminated, Local.full_lines_at_feed line.ended_feedless,
          line.without_return_ended, induction]
      · have last : rest = [] := by
          cases rest with
          | nil => rfl
          | cons next others => simp at terminated
        rw [if_neg terminated, Local.full_lines_of_plain line.text_feedless,
          line.without_return_text, last]
        exact (List.append_nil _).symm

theorem records_tabless {lines : List TextLine} {record : Record}
    (member : record ∈ records lines) : Transform.tab ∉ record.key := by
  rcases List.mem_filterMap.mp member with ⟨line, _, found⟩
  exact (line.plain record found).tabless

end TextLine

namespace Local

/-- Records written as text, with whatever line ends and blank lines, are mapped to themselves. Any
file is mapped just when each of its lines is empty or has a tab, and its full lines are then the
records it gave, each as key, tab and value. -/
theorem text_inputs_parsed {m : Type → Type} [Monad m] {σ Reader Writer : Type} [Stateful m σ]
    (files : FileSystem m Reader Writer) {job : JobSpec} (text : ReadsText job) (path : Path)
    (state : σ) (before : Mapped) :
    (∀ lines ended, files.Delivers path (TextLine.write ended lines) state →
      ∃ after, (perform (mapFile files job path before) state).1 = .ok after ∧
        after.recordsIn = before.recordsIn + (TextLine.records lines).length ∧
        bucket after.routed.reverse 0 =
          bucket before.routed.reverse 0 ++ TextLine.records lines) ∧
    ∀ contents, files.Delivers path contents state →
      ((∃ after, (perform (mapFile files job path before) state).1 = .ok after) ↔
        ∀ line ∈ contents.splitOn Source.lineFeed,
          withoutReturn line = [] ∨ Transform.tab ∈ withoutReturn line) ∧
      ∀ after, (perform (mapFile files job path before) state).1 = .ok after →
        ∃ records : List Record, after.recordsIn = before.recordsIn + records.length ∧
          bucket after.routed.reverse 0 = bucket before.routed.reverse 0 ++ records ∧
          (∀ record ∈ records, Transform.tab ∉ record.key) ∧
          records.map Record.joined =
            ((contents.splitOn Source.lineFeed).map withoutReturn).filter fun line =>
              !line.isEmpty := by
  constructor
  · intro lines ended delivers
    have full := TextLine.full_lines_write ended lines
    have tabless : ∀ record ∈ TextLine.records lines, Transform.tab ∉ record.key :=
      fun _ => TextLine.records_tabless
    have tabbed : ∀ line ∈ fullLines (TextLine.write ended lines), Transform.tab ∈ line := by
      rw [full]
      intro line member
      rcases List.mem_map.mp member with ⟨record, _, rfl⟩
      simp [Record.joined]
    rcases (map_text_ok_iff text delivers before).mpr tabbed with ⟨after, done⟩
    have gives := map_text_gives text delivers done
    rw [full, List.length_map, kept_of_joined tabless] at gives
    exact ⟨after, done, gives⟩
  · intro contents delivers
    have accepted := map_text_ok_iff text delivers before
    refine ⟨accepted.trans (forall_full_lines contents _), ?_⟩
    intro after done
    rcases map_text_gives text delivers done with ⟨counted, bucketed⟩
    rcases joined_kept (accepted.mp ⟨after, done⟩) with ⟨joined, keys⟩
    refine ⟨_, ?_, bucketed, keys, joined⟩
    rw [counted, ← congrArg List.length joined, List.length_map]

/-- A record, a blank line and a record without a key whose value has a tab, the last line without
its end. -/
def sampleText : List TextLine :=
  [⟨some ⟨Bytes.ofText "k", Bytes.ofText "v"⟩, by decide, .returnFeed⟩,
   ⟨none, by decide, .returnFeed⟩,
   ⟨some ⟨[], Bytes.ofText "a\tb"⟩, by decide, .feed⟩]

theorem sample_text_parsed :
    ∃ after, (perform (mapFile Memory.files { JobSpec.twoNodes with reduceTasks := 1 }
        (.ofText "/in/a") ⟨0, []⟩)
          (Memory.Tree.empty.addFile (.ofText "/in/a") (TextLine.write false sampleText))).1 =
            .ok after ∧
      after.recordsIn = 2 ∧
      bucket after.routed.reverse 0 =
        [⟨Bytes.ofText "k", Bytes.ofText "v"⟩, ⟨[], Bytes.ofText "a\tb"⟩] := by
  have text : ReadsText { JobSpec.twoNodes with reduceTasks := 1 } :=
    ⟨rfl, rfl, fun key => Partitioner.md5_ranged key (by decide), by decide⟩
  exact (text_inputs_parsed Memory.files text (.ofText "/in/a") _ ⟨0, []⟩).1 sampleText false
    (delivers_of_readable (by constructor <;> decide +kernel))

end Local

end ChunkStore
