import ChunkStore.Proofs.Confinement

/-!
What a build does to its input. The temp path is emptied before the input is sized, so files of the
input that lie there are lost; every other file outlives the build, wherever the three paths lie.
-/

namespace ChunkStore

set_option autoImplicit false

open Stateful Memory

namespace Memory.Tree

theorem find_outside (tree : Tree) {rooms : List Path} {path : Path}
    (outside : isWithin rooms path = false) :
    tree.find? path = (tree.outside rooms).find? fun entry => entry.path.same path := by
  rw [find?, Tree.outside, List.find?_filter]
  congr 1
  funext entry
  by_cases same : entry.path.same path = true
  · rw [within_congr same, outside, same]
    rfl
  · simp [same]

theorem Confined.contents {rooms : List Path} {before after : Tree}
    (confined : Confined rooms before after) {path : Path} (outside : isWithin rooms path = false)
    {contents : Bytes} (there : before.contents? path = some contents) :
    after.contents? path = some contents := by
  obtain ⟨made, same, _⟩ := confined.kept
  rw [contents_of_node, node?, Option.map_eq_some_iff] at there ⊢
  obtain ⟨entry, found, node⟩ := there
  refine ⟨entry, ?_, node⟩
  rw [find_outside _ outside] at found ⊢
  rw [same, List.find?_append, found, Option.some_or]

theorem outside_of_absent {tree : Tree} (rooted : tree.Rooted) {path file : Path}
    (absent : tree.isPresent path = false) {contents : Bytes}
    (there : tree.contents? file = some contents) : file.startsWith path = false := by
  rw [Bool.eq_false_iff]
  intro below
  rw [contents_of_node, vacant_of_absent rooted absent file below] at there
  exact absurd there (by simp)

end Memory.Tree

open Memory.Tree

namespace Builder

/-- What every stage of a build keeps, the whole build keeps. -/
theorem kept_by_build (builder : Builder) (submission : Submission) {tree : Tree}
    (absent : tree.isPresent builder.config.output = false) (holds : Tree → Prop)
    (cleared : holds (tree.delete builder.config.temp))
    (running : ∀ inputBytes before, holds before →
      holds (perform (Local.run files (builder.job submission (builder.plan inputBytes))) before).2)
    (checking : ∀ before, holds before →
      holds (perform (checksums files builder.config) before).2) :
    holds (perform (build files (Local.engine files) builder submission) tree).2 := by
  have built := build_cases builder submission absent
  generalize perform (build files (Local.engine files) builder submission) tree = outcome at built
  cases built with
  | unscanned error => exact cleared
  | stopped inputBytes error after ran =>
      have kept := running inputBytes _ cleared
      rwa [ran] at kept
  | unchecked inputBytes stats middle after error ran checked =>
      have kept := running inputBytes _ cleared
      rw [ran] at kept
      have final := checking middle kept
      rwa [checked] at final
  | complete inputBytes stats middle after nodes ran checked =>
      have kept := running inputBytes _ cleared
      rw [ran] at kept
      have final := checking middle kept
      rwa [checked] at final

theorem file_outlives_build (builder : Builder) (submission : Submission) {tree : Tree}
    (rooted : tree.Rooted) {file : Path} {contents : Bytes}
    (there : tree.contents? file = some contents)
    (spared : file.startsWith builder.config.temp = false ∨
      tree.isPresent builder.config.output = true) :
    (perform (build files (Local.engine files) builder submission) tree).2.contents? file =
      some contents := by
  by_cases present : tree.isPresent builder.config.output = true
  · rw [build_of_present builder submission present]
    exact there
  have absent := Bool.eq_false_iff.mpr present
  have apart := spared.resolve_right present
  have outside : isWithin [builder.config.temp, builder.config.output] file = false := by
    simp [isWithin, apart, outside_of_absent rooted absent there]
  refine kept_by_build builder submission absent
    (fun after => after.contents? file = some contents) ?_ ?_ ?_
  · rw [contents_delete, apart, if_neg (by simp)]
    exact there
  · intro inputBytes before holds
    exact (Local.run_confined _ before).contents outside holds
  · intro before holds
    exact (checksums_confined builder.config (by simp) before).contents outside holds

/-- However a build ends, it leaves every file with its bytes that does not lie at the temp path or
below it, and all files where it is refused because something is at its output path. So the whole
input outlives it when neither of the input and the temp path leads to the other. -/
theorem build_spares_input (builder : Builder) (submission : Submission) (tree : Tree)
    (rooted : tree.Rooted) :
    (∀ (file : Path) (contents : Bytes), tree.contents? file = some contents →
      (file.startsWith builder.config.temp = false ∨
        tree.isPresent builder.config.output = true) →
      ((build files (Local.engine files) builder submission).run.run tree).2.contents? file =
        some contents) ∧
    (builder.config.input.startsWith builder.config.temp = false →
      builder.config.temp.startsWith builder.config.input = false →
      ∀ (file : Path) (contents : Bytes), file.startsWith builder.config.input = true →
        tree.contents? file = some contents →
        ((build files (Local.engine files) builder submission).run.run tree).2.contents? file =
          some contents) := by
  rw [← perform_eq_run]
  constructor
  · intro file contents there spared
    exact file_outlives_build builder submission rooted there spared
  · intro notInTemp notInInput file contents inInput there
    apply file_outlives_build builder submission rooted there
    left
    rw [Bool.eq_false_iff, Ne, Path.starts_with_iff_parts] at notInTemp notInInput ⊢
    rw [Path.starts_with_iff_parts] at inInput
    intro inTemp
    rcases List.prefix_or_prefix_of_prefix inInput inTemp with above | below
    · exact notInInput above
    · exact notInTemp below

def nestedBuilder : Builder :=
  { sampleBuilder with
    config := ⟨{ sampleSettings with temp := .ofText "/in/tmp", checksumEnabled := false },
      ⟨by decide, by decide, by decide, by decide, by decide⟩⟩ }

def nestedTree : Tree :=
  (Tree.empty.addFile (.ofText "/in/a") [107, 9, 118]).addFile (.ofText "/in/tmp/b") [108, 9, 119]

/-- A file of the input outlives the build and another one, at the temp path, does not. -/
theorem nested_file_spared :
    nestedTree.Rooted ∧ nestedTree.contents? (.ofText "/in/a") = some [107, 9, 118] ∧
      ((build files (Local.engine files) nestedBuilder ⟨"job", "now"⟩).run.run
        nestedTree).2.contents? (.ofText "/in/a") = some [107, 9, 118] := by
  have rooted : nestedTree.Rooted := by decide +kernel
  have there : nestedTree.contents? (.ofText "/in/a") = some [107, 9, 118] := by decide +kernel
  exact ⟨rooted, there, (build_spares_input nestedBuilder ⟨"job", "now"⟩ nestedTree rooted).1
    _ _ there (.inl (by decide))⟩

theorem nested_file_lost :
    nestedBuilder.config.toBuildSettings.check.isOk = true ∧ nestedTree.Rooted ∧
      (Path.ofText "/in/tmp/b").startsWith nestedBuilder.config.input = true ∧
      nestedTree.contents? (.ofText "/in/tmp/b") = some [108, 9, 119] ∧
      ((build files (Local.engine files) nestedBuilder ⟨"job", "now"⟩).run.run
        nestedTree).2.contents? (.ofText "/in/tmp/b") = none := by
  decide +kernel

end Builder

end ChunkStore
