import ChunkStore.Path
import Mathlib.Data.List.Induction

/-!
Paths by their parts. Joining a plain name adds one part, the parent drops one, and the paths
above a path are exactly the beginnings of its parts, the longest first. The cutting and joining
of texts stays inside this module: everything else argues about parts.
-/

namespace ChunkStore.Path

set_option autoImplicit false

/-! Segments -/

theorem segments_eq_split (chars : List Char) : segments chars = chars.splitOn '/' := by
  induction chars with
  | nil => rfl
  | cons char rest induction =>
      rw [segments, induction, List.splitOn_cons_eq_if_modifyHead]
      cases split : rest.splitOn '/' with
      | nil => exact absurd split (List.splitOn_ne_nil _ _)
      | cons segment others =>
          by_cases slash : char = '/' <;> simp [slash]

theorem segments_ne_nil (chars : List Char) : segments chars ≠ [] := by
  rw [segments_eq_split]
  exact List.splitOn_ne_nil _ _

theorem segments_append_slash (front back : List Char) :
    segments (front ++ '/' :: back) = segments front ++ segments back := by
  simp only [segments_eq_split]
  exact List.splitOn_append_cons_self front back

theorem segments_of_no_slash (chars : List Char) (plain : '/' ∉ chars) :
    segments chars = [chars] := by
  rw [segments_eq_split]
  exact List.splitOn_eq_singleton plain

theorem segments_intercalate (parts : List (List Char)) (present : parts ≠ [])
    (plain : ∀ part ∈ parts, '/' ∉ part) : segments (['/'].intercalate parts) = parts := by
  rw [segments_eq_split]
  exact List.splitOn_intercalate '/' plain present

theorem intercalate_segments (chars : List Char) : ['/'].intercalate (segments chars) = chars := by
  rw [segments_eq_split]
  exact List.intercalate_splitOn '/'

theorem no_slash_of_segment (chars segment : List Char) (member : segment ∈ segments chars) :
    '/' ∉ segment := by
  induction chars generalizing segment with
  | nil =>
      have empty : segment = [] := by simpa [segments] using member
      simp [empty]
  | cons char rest induction =>
      unfold segments at member
      cases split : segments rest with
      | nil => exact absurd split (segments_ne_nil rest)
      | cons first others =>
          rw [split] at induction member
          by_cases slash : char = '/'
          · rcases (by simpa [slash] using member : segment = [] ∨ segment ∈ first :: others) with
              empty | earlier
            · simp [empty]
            · exact induction segment earlier
          · rcases (by simpa [slash] using member : segment = char :: first ∨ segment ∈ others) with
              same | later
            · rw [same, List.mem_cons, not_or]
              exact ⟨fun equal => slash equal.symm, induction first (by simp)⟩
            · exact induction segment (by simp [later])

/-! Parts of segments -/

def readSegments : List (List Char) → List PathPart
  | [] => []
  | first :: rest => headParts first (rest == []) ++ tailParts rest

theorem parts_eq_read (path : Path) : path.parts = readSegments (segments path.text.toList) := by
  rw [parts, path.upward_eq, List.reverse_reverse, partsOf]
  cases segments path.text.toList <;> rfl

theorem tail_parts_append (front back : List (List Char)) :
    tailParts (front ++ back) = tailParts front ++ tailParts back := by
  simp [tailParts]

theorem tail_parts_of_skipped (segments : List (List Char))
    (skipped : ∀ segment ∈ segments, isSkipped segment = true) : tailParts segments = [] := by
  simp only [tailParts, List.map_eq_nil_iff, List.filter_eq_nil_iff]
  intro segment member
  simp [skipped segment member]

theorem read_segments_of_more (first : List Char) (rest : List (List Char)) (more : rest ≠ []) :
    readSegments (first :: rest) = headParts first false ++ tailParts rest := by
  have occupied : (rest == []) = false := beq_eq_false_iff_ne.mpr more
  rw [readSegments, occupied]

theorem read_segments_of_head (first : List Char) (rest : List (List Char)) (head : first ≠ []) :
    readSegments (first :: rest) = headParts first false ++ tailParts rest := by
  simp [readSegments, headParts, head]

/-! Joining a name -/

/-- A name that is one part of a path: not empty, without a slash, and neither of the dots. -/
structure Plain (name : String) : Prop where
  ne_nil : name.toList ≠ []
  no_slash : '/' ∉ name.toList
  ne_dot : name.toList ≠ ['.']
  ne_dots : name.toList ≠ ['.', '.']

theorem Plain.not_skipped {name : String} (plain : Plain name) : isSkipped name.toList = false := by
  simp only [isSkipped, Bool.or_eq_false_iff, beq_eq_false_iff_ne]
  exact ⟨plain.ne_nil, plain.ne_dot⟩

theorem Plain.tail_parts {name : String} (plain : Plain name) :
    tailParts [name.toList] = [.named name] := by
  have part : partOf name.toList = .named name := by
    rw [partOf, if_neg plain.ne_dots, String.ofList_toList]
  simp [tailParts, plain.not_skipped, part]

theorem Plain.of_head {name : String} {head : Char} {rest : List Char}
    (written : name.toList = head :: rest) (dotless : head ≠ '.') (no_slash : '/' ∉ name.toList) :
    Plain name where
  ne_nil := by simp [written]
  no_slash := no_slash
  ne_dot := by simp [written, dotless]
  ne_dots := by simp [written, dotless]

theorem Plain.not_absolute {name : String} (plain : Plain name) :
    name.toList.head? ≠ some '/' := by
  intro slash
  exact plain.no_slash (List.mem_of_mem_head? slash)

theorem join_cases (base : Path) (name : String) (plain : Plain name) :
    (base.text.toList = [] ∧ (base.join name).text.toList = name.toList) ∨
    (∃ front, base.text.toList = front ++ ['/'] ∧
      (base.join name).text.toList = front ++ '/' :: name.toList) ∨
    (base.text.toList ≠ [] ∧ base.text.toList.getLast? ≠ some '/' ∧
      (base.join name).text.toList = base.text.toList ++ '/' :: name.toList) := by
  rw [join, if_neg plain.not_absolute]
  by_cases empty : base.text.toList = []
  · left
    simp [empty]
  right
  by_cases slash : base.text.toList.getLast? = some '/'
  · left
    obtain ⟨front, written⟩ := List.getLast?_eq_some_iff.mp slash
    refine ⟨front, written, ?_⟩
    rw [if_pos (Or.inr slash), text_of_text, String.toList_append, written]
    simp
  · right
    refine ⟨empty, slash, ?_⟩
    rw [if_neg (by simp [empty, slash]), text_of_text]
    simp

theorem parts_join (base : Path) (name : String) (plain : Plain name) :
    (base.join name).parts = base.parts ++ [.named name] := by
  have alone := segments_of_no_slash name.toList plain.no_slash
  rw [parts_eq_read, parts_eq_read base]
  rcases join_cases base name plain with ⟨empty, joined⟩ | ⟨front, written, joined⟩ |
    ⟨present, _, joined⟩
  · have head := read_segments_of_head name.toList [] plain.ne_nil
    have named : headParts name.toList false = tailParts [name.toList] := by
      simp [headParts, tailParts, plain.ne_nil, plain.ne_dot, plain.not_skipped]
    rw [joined, empty, alone, head, named, plain.tail_parts]
    rfl
  · rw [joined, written, segments_append_slash, segments_append_slash, alone]
    obtain ⟨first, rest, split⟩ := List.exists_cons_of_ne_nil (segments_ne_nil front)
    rw [split, List.cons_append, List.cons_append, read_segments_of_more _ _ (by simp),
      read_segments_of_more _ _ (by simp [segments]), tail_parts_append, tail_parts_append,
      plain.tail_parts, tail_parts_of_skipped (segments []) (by simp [segments, isSkipped])]
    simp
  · rw [joined, segments_append_slash, alone]
    obtain ⟨first, rest, split⟩ := List.exists_cons_of_ne_nil (segments_ne_nil base.text.toList)
    rw [split, List.cons_append, read_segments_of_more _ _ (by simp), tail_parts_append,
      plain.tail_parts, ← List.append_assoc]
    congr 1
    by_cases head : first = []
    · have more : rest ≠ [] := by
        intro none
        apply present
        rw [← intercalate_segments base.text.toList, split, head, none]
        rfl
      rw [read_segments_of_more _ _ more]
    · rw [read_segments_of_head _ _ head]

/-! Going up -/

theorem prefix_dropLast_of_ne {α : Type} {front whole : List α} (beginning : front <+: whole)
    (proper : front ≠ whole) : front <+: whole.dropLast := by
  obtain ⟨rest, shape⟩ := beginning
  have more : rest ≠ [] := by
    intro none
    rw [none, List.append_nil] at shape
    exact proper shape
  rw [← shape, List.dropLast_append_of_ne_nil more]
  exact List.prefix_append _ _

/-- Segments that name nothing are skipped from the end; what is left ends with one that names
something, if there is one. -/
theorem skip_cases (segments : List (List Char)) :
    (segments.reverse.dropWhile isSkipped = [] ∧ tailParts segments = []) ∨
    (∃ before last after, segments = before ++ last :: after ∧ isSkipped last = false ∧
      tailParts after = [] ∧ segments.reverse.dropWhile isSkipped = last :: before.reverse) := by
  induction segments using List.reverseRecOn with
  | nil =>
      left
      simp [tailParts]
  | append_singleton before last induction =>
      by_cases skipped : isSkipped last = true
      · have one : tailParts [last] = [] := by simp [tailParts, skipped]
        rcases induction with ⟨none, nothing⟩ | ⟨front, named, after, shape, kept, nothing, found⟩
        · left
          refine ⟨by simp [skipped, none], ?_⟩
          rw [tail_parts_append, nothing, one, List.append_nil]
        · right
          refine ⟨front, named, after ++ [last], by simp [shape], kept, ?_,
            by simp [skipped, found]⟩
          rw [tail_parts_append, nothing, one, List.append_nil]
      · right
        have kept : isSkipped last = false := by simpa using skipped
        exact ⟨before, last, [], rfl, kept, rfl, by simp [kept]⟩

theorem tail_parts_trimmed (segments : List (List Char)) :
    tailParts (segments.reverse.dropWhile isSkipped).reverse = tailParts segments := by
  rcases skip_cases segments with ⟨none, nothing⟩ | ⟨before, last, after, shape, _, nothing, found⟩
  · rw [none, nothing]
    rfl
  · rw [found, shape, List.reverse_cons, List.reverse_reverse, tail_parts_append,
      tail_parts_append, ← List.singleton_append (l := after), tail_parts_append, nothing,
      List.append_nil]

theorem read_segments_last (first last : List Char) (before after : List (List Char))
    (kept : isSkipped last = false) (nothing : tailParts after = []) :
    readSegments (first :: (before ++ last :: after)) =
      headParts first false ++ tailParts before ++ [partOf last] := by
  have one : tailParts [last] = [partOf last] := by simp [tailParts, kept]
  rw [read_segments_of_more _ _ (by simp), tail_parts_append, ← List.singleton_append,
    tail_parts_append, one, nothing, List.append_nil, List.append_assoc]

theorem part_of_ne_root (segment : List Char) : partOf segment ≠ .root := by
  by_cases dots : segment = ['.', '.'] <;> simp [partOf, dots]

theorem is_root_iff (path : Path) :
    path.isRoot = true ↔ path.parts = [] ∨ path.parts = [.root] := by
  simp [isRoot, parts]

theorem parent_of_head {path : Path} {first : List Char} {rest : List (List Char)}
    (split : segments path.text.toList = first :: rest)
    (none : rest.reverse.dropWhile isSkipped = []) (nothing : tailParts rest = []) :
    (path.parent? = .none ∧ path.isRoot = true) ∨
      (path.parent? = some (ofText "") ∧ path.isRoot = false ∧ path.parts.dropLast = []) := by
  have read := parts_eq_read path
  rw [split, readSegments, nothing, List.append_nil] at read
  by_cases head : first = []
  · left
    refine ⟨by simp [parent?, split, none, head], (is_root_iff path).mpr ?_⟩
    rw [read, head]
    cases rest <;> simp [headParts]
  · right
    have one : ∃ part, path.parts = [part] ∧ part ≠ .root := by
      by_cases dot : first = ['.']
      · exact ⟨.here, by simp [read, headParts, dot], by simp⟩
      · exact ⟨partOf first, by simp [read, headParts, head, dot], part_of_ne_root first⟩
    obtain ⟨part, single, notRoot⟩ := one
    refine ⟨by simp [parent?, split, none, head], ?_, by rw [single]; rfl⟩
    rw [Bool.eq_false_iff, Ne, is_root_iff, single]
    simpa using notRoot

theorem parts_of_first {first : List Char} {before : List (List Char)} (plain : '/' ∉ first)
    (none : (before.reverse.dropWhile isSkipped).reverse = []) :
    (ofText (if first = [] then "/" else String.ofList first)).parts =
      headParts first false ++ tailParts before := by
  have trimmed := tail_parts_trimmed before
  rw [none] at trimmed
  rw [← trimmed, parts_eq_read, text_of_text]
  by_cases head : first = []
  · rw [if_pos head, head]
    rfl
  · rw [if_neg head, String.toList_ofList, segments_of_no_slash first plain,
      read_segments_of_head _ _ head]

/-- The segments of a path without those at its end that name nothing are written as a path that
has the same parts. -/
theorem parts_of_trimmed {first next : List Char} {before others : List (List Char)}
    (plain : ∀ segment ∈ first :: before, '/' ∉ segment)
    (above : (before.reverse.dropWhile isSkipped).reverse = next :: others) :
    (ofText (String.ofList (['/'].intercalate (first :: next :: others)))).parts =
      headParts first false ++ tailParts before := by
  have trimmed := tail_parts_trimmed before
  rw [above] at trimmed
  have inside : ∀ segment ∈ first :: next :: others, '/' ∉ segment := by
    intro segment member
    rcases List.mem_cons.mp member with head | rest
    · exact head ▸ plain first List.mem_cons_self
    · rw [← above, List.mem_reverse] at rest
      have earlier := List.mem_reverse.mp ((List.dropWhile_sublist _).subset rest)
      exact plain segment (List.mem_cons_of_mem first earlier)
  rw [← trimmed, parts_eq_read, text_of_text, String.toList_ofList,
    segments_intercalate _ (List.cons_ne_nil _ _) inside, read_segments_of_more _ _ (by simp)]

/-- A path without a parent is a root, and any other loses its last part. -/
theorem parent_cases (path : Path) :
    (path.parent? = none ∧ path.isRoot = true) ∨
    (∃ parent, path.parent? = some parent ∧ path.isRoot = false ∧
      parent.parts = path.parts.dropLast) := by
  obtain ⟨first, rest, split⟩ := List.exists_cons_of_ne_nil (segments_ne_nil path.text.toList)
  rcases skip_cases rest with ⟨none, nothing⟩ | ⟨before, last, after, shape, kept, nothing, found⟩
  · rcases parent_of_head split none nothing with isRoot | ⟨atHead, notRoot, dropped⟩
    · exact Or.inl isRoot
    · exact Or.inr ⟨ofText "", atHead, notRoot, by rw [dropped]; rfl⟩
  · right
    have read := parts_eq_read path
    rw [split, shape, read_segments_last first last before after kept nothing] at read
    have plain : ∀ segment ∈ first :: before, '/' ∉ segment := by
      intro segment member
      apply no_slash_of_segment path.text.toList segment
      rw [split, shape]
      exact List.cons_subset_cons first (List.subset_append_left before _) member
    have notRoot : path.isRoot = false := by
      rw [Bool.eq_false_iff, Ne, is_root_iff, read]
      rintro (empty | root)
      · simp at empty
      · have ends := congrArg List.getLast? root
        simp only [List.getLast?_append, List.getLast?_singleton, Option.some_or,
          Option.some.injEq] at ends
        exact part_of_ne_root last ends
    rw [read, List.dropLast_concat, parent?, split]
    simp only [found]
    cases above : (before.reverse.dropWhile isSkipped).reverse with
    | nil => exact ⟨_, rfl, notRoot, parts_of_first (plain first List.mem_cons_self) above⟩
    | cons next others => exact ⟨_, rfl, notRoot, parts_of_trimmed plain above⟩

theorem parts_parent {path parent : Path} (found : path.parent? = some parent) :
    path.isRoot = false ∧ parent.parts = path.parts.dropLast := by
  rcases parent_cases path with ⟨none, _⟩ | ⟨above, here, notRoot, dropped⟩
  · rw [found] at none
    exact absurd none (by simp)
  · rw [found, Option.some.injEq] at here
    exact ⟨notRoot, here ▸ dropped⟩

theorem exists_parent {path : Path} (notRoot : path.isRoot = false) :
    ∃ parent, path.parent? = some parent := by
  rcases parent_cases path with ⟨_, root⟩ | ⟨parent, found, _, _⟩
  · rw [root] at notRoot
    exact absurd notRoot (by simp)
  · exact ⟨parent, found⟩

theorem length_parent {path parent : Path} (found : path.parent? = some parent) :
    path.parts.length = parent.parts.length + 1 := by
  obtain ⟨notRoot, dropped⟩ := parts_parent found
  rw [Bool.eq_false_iff, Ne, is_root_iff, not_or] at notRoot
  have positive := List.length_pos_iff.mpr notRoot.1
  rw [dropped, List.length_dropLast]
  omega

theorem segments_join (base : Path) (name : String) (plain : Plain name) :
    ∃ before, segments (base.join name).text.toList = before ++ [name.toList] := by
  have alone := segments_of_no_slash name.toList plain.no_slash
  rcases join_cases base name plain with ⟨_, joined⟩ | ⟨front, _, joined⟩ | ⟨_, _, joined⟩
  · exact ⟨[], by rw [joined, alone, List.nil_append]⟩
  · exact ⟨segments front, by rw [joined, segments_append_slash, alone]⟩
  · exact ⟨segments base.text.toList, by rw [joined, segments_append_slash, alone]⟩

theorem text_join_join (base : Path) (first second : String) (plainFirst : Plain first)
    (plainSecond : Plain second) :
    ((base.join first).join second).text.toList =
      (base.join first).text.toList ++ '/' :: second.toList := by
  obtain ⟨before, split⟩ := segments_join base first plainFirst
  have read := intercalate_segments (base.join first).text.toList
  rcases join_cases (base.join first) second plainSecond with
    ⟨empty, _⟩ | ⟨front, written, _⟩ | ⟨_, _, joined⟩
  · rw [empty] at split
    have single : before ++ [first.toList] = [[]] := by rw [← split]; rfl
    have last := congrArg List.getLast? single
    simp only [List.getLast?_append, List.getLast?_singleton, Option.some_or,
      Option.some.injEq] at last
    exact absurd last plainFirst.ne_nil
  · rw [written, segments_append_slash] at split
    have last := congrArg List.getLast? split
    simp only [segments, List.getLast?_append, List.getLast?_singleton, Option.some_or,
      Option.some.injEq] at last
    exact absurd last.symm plainFirst.ne_nil
  · exact joined

/-- The parent of a name behind a path that itself ends with a name is that path as it was
written. -/
theorem parent_join_join (base : Path) (first second : String) (plainFirst : Plain first)
    (plainSecond : Plain second) :
    ((base.join first).join second).parent? = some (base.join first) := by
  have text := text_join_join base first second plainFirst plainSecond
  obtain ⟨before, split⟩ := segments_join base first plainFirst
  have read := intercalate_segments (base.join first).text.toList
  have alone := segments_of_no_slash second.toList plainSecond.no_slash
  rw [parent?, text, segments_append_slash, split, alone]
  rw [split] at read
  cases before with
  | nil =>
      have whole : (base.join first).text.toList = first.toList := by
        simpa [List.intercalate] using read.symm
      simp only [List.nil_append, List.singleton_append, List.reverse_cons, List.reverse_nil,
        List.dropWhile_cons, plainSecond.not_skipped, List.dropWhile_nil, plainFirst.ne_nil,
        if_false, Bool.false_eq_true]
      congr 1
      apply eq_of_text_eq
      rw [text_of_text, ← whole, String.ofList_toList]
  | cons head middle =>
      simp only [List.cons_append, List.reverse_append, List.reverse_cons, List.reverse_nil,
        List.nil_append, List.dropWhile_cons, plainSecond.not_skipped, plainFirst.not_skipped,
        Bool.false_eq_true, if_false, List.reverse_reverse]
      have kept : (head :: (middle ++ [first.toList])) = (head :: middle) ++ [first.toList] := rfl
      cases shape : middle ++ [first.toList] with
      | nil => simp at shape
      | cons next others =>
          simp only
          rw [← shape, kept, read]
          congr 1
          apply eq_of_text_eq
          rw [text_of_text, String.ofList_toList]

/-! Everything above a path -/

theorem length_upward (path : Path) : path.upward.length = path.parts.length := by
  simp [parts]

theorem ancestors_eq (path : Path) :
    path.ancestors = path :: (match path.parent? with
      | none => []
      | some parent => parent.ancestors) := by
  rcases parent_cases path with ⟨none, _⟩ | ⟨parent, found, _, _⟩
  · rw [ancestors, none]
    cases path.upward.length <;> simp [ancestorsWithin, none]
  · simp only [ancestors, length_upward, length_parent found, ancestorsWithin, found]

/-- What holds of a root and passes from a parent to its children holds of every path. -/
theorem parent_induction {motive : Path → Prop}
    (root : ∀ path : Path, path.isRoot = true → path.parent? = none → motive path)
    (step : ∀ path parent : Path, path.parent? = some parent → path.isRoot = false →
      parent.parts = path.parts.dropLast → motive parent → motive path)
    (path : Path) : motive path := by
  induction size : path.parts.length generalizing path with
  | zero =>
      rcases parent_cases path with ⟨none, isRoot⟩ | ⟨parent, _, notRoot, _⟩
      · exact root path isRoot none
      · rw [Bool.eq_false_iff, Ne, is_root_iff] at notRoot
        exact absurd (Or.inl (List.eq_nil_of_length_eq_zero size)) notRoot
  | succ count induction =>
      rcases parent_cases path with ⟨none, isRoot⟩ | ⟨parent, found, notRoot, dropped⟩
      · exact root path isRoot none
      · refine step path parent found notRoot dropped (induction parent ?_)
        rw [dropped, List.length_dropLast, size, Nat.add_sub_cancel]

theorem ancestor_is_beginning (path above : Path) (member : above ∈ path.ancestors) :
    above.parts <+: path.parts := by
  induction path using parent_induction with
  | root path _ none =>
      rw [ancestors_eq, none] at member
      have same : above = path := by simpa using member
      exact same ▸ List.prefix_rfl
  | step path parent found _ dropped induction =>
      rw [ancestors_eq, found] at member
      rcases List.mem_cons.mp member with same | higher
      · exact same ▸ List.prefix_rfl
      · exact (dropped ▸ induction higher).trans (List.dropLast_prefix _)

theorem exists_ancestor (path : Path) (front : List PathPart) (beginning : front <+: path.parts)
    (present : front ≠ []) (notRoot : front ≠ [.root]) :
    ∃ above ∈ path.ancestors, above.parts = front := by
  induction path using parent_induction with
  | root path isRoot none =>
      rcases (is_root_iff path).mp isRoot with empty | root
      · rw [empty, List.prefix_nil] at beginning
        exact absurd beginning present
      · rw [root] at beginning
        rcases List.prefix_cons_iff.mp beginning with empty | ⟨rest, shape, tail⟩
        · exact absurd empty present
        · rw [List.prefix_nil.mp tail] at shape
          exact absurd shape notRoot
  | step path parent found _ dropped induction =>
      rw [ancestors_eq, found]
      by_cases whole : front = path.parts
      · exact ⟨path, by simp, whole.symm⟩
      · have shorter : front <+: parent.parts := by
          rw [dropped]
          exact prefix_dropLast_of_ne beginning whole
        obtain ⟨above, member, same⟩ := induction shorter
        exact ⟨above, List.mem_cons_of_mem _ member, same⟩

theorem ancestors_shrink (path : Path) :
    path.ancestors.Pairwise fun lower higher => higher.parts.length < lower.parts.length := by
  induction path using parent_induction with
  | root path _ none =>
      rw [ancestors_eq, none]
      simp
  | step path parent found _ _ induction =>
      rw [ancestors_eq, found]
      refine List.pairwise_cons.mpr ⟨?_, induction⟩
      intro higher member
      have bound := (ancestor_is_beginning parent higher member).length_le
      rw [length_parent found]
      omega

theorem ancestors_cons (path : Path) :
    ∃ higher, path.ancestors = path :: higher ∧
      ∀ above ∈ higher, above.parts.length < path.parts.length := by
  have shrink := ancestors_shrink path
  rw [ancestors_eq] at shrink ⊢
  exact ⟨_, rfl, (List.pairwise_cons.mp shrink).1⟩

/-! Places -/

theorem same_refl (path : Path) : path.same path = true := (same_iff_parts path path).mpr rfl

theorem same_comm (left right : Path) : left.same right = right.same left := by
  rw [Bool.eq_iff_iff, same_iff_parts, same_iff_parts]
  exact eq_comm

theorem same_trans {left middle right : Path} (first : left.same middle = true)
    (second : middle.same right = true) : left.same right = true := by
  rw [same_iff_parts] at first second ⊢
  exact first.trans second

theorem not_same_of_length {left right : Path}
    (different : left.parts.length ≠ right.parts.length) : left.same right = false := by
  rw [Bool.eq_false_iff, Ne, same_iff_parts]
  intro same
  exact different (congrArg List.length same)

theorem is_root_congr {left right : Path} (same : left.same right = true) :
    left.isRoot = right.isRoot := by
  rw [Bool.eq_iff_iff, is_root_iff, is_root_iff, (same_iff_parts left right).mp same]

theorem is_root_of_beginning {base path : Path} (beginning : base.parts <+: path.parts)
    (root : path.isRoot = true) : base.isRoot = true := by
  rw [is_root_iff] at root ⊢
  rcases root with empty | root
  · rw [empty, List.prefix_nil] at beginning
    exact Or.inl beginning
  · rw [root] at beginning
    rcases List.prefix_cons_iff.mp beginning with empty | ⟨rest, shape, tail⟩
    · exact Or.inl empty
    · rw [List.prefix_nil.mp tail] at shape
      exact Or.inr shape

theorem is_child_iff (path base : Path) :
    path.isChildOf base = true ↔ ∃ part, part ≠ .root ∧ path.parts = base.parts ++ [part] := by
  have ends (part : PathPart) :
      path.parts = base.parts ++ [part] ↔ path.upward = part :: base.upward := by
    rw [parts, parts, ← List.reverse_inj, List.reverse_reverse, List.reverse_append,
      List.reverse_reverse]
    rfl
  simp only [ends]
  unfold isChildOf
  split
  · simp_all
  · simp_all
  · rename_i part above notRoot shape
    simp only [shape, beq_iff_eq]
    constructor
    · intro same
      exact ⟨part, notRoot, by rw [same]⟩
    · rintro ⟨other, _, same⟩
      exact (List.cons.inj same).2

theorem length_child {path base : Path} (child : path.isChildOf base = true) :
    path.parts.length = base.parts.length + 1 := by
  obtain ⟨part, _, parts⟩ := (is_child_iff path base).mp child
  rw [parts, List.length_append]
  rfl

theorem not_root_of_child {path base : Path} (child : path.isChildOf base = true) :
    path.isRoot = false := by
  obtain ⟨part, notRoot, parts⟩ := (is_child_iff path base).mp child
  rw [Bool.eq_false_iff, Ne, is_root_iff, parts]
  rintro (empty | root)
  · exact absurd empty (by simp)
  · have last := congrArg List.getLast? root
    rw [List.getLast?_append] at last
    exact notRoot (Option.some.inj last)

/-! Parents -/

theorem parent_congr {path other parent : Path} (same : path.same other = true)
    (found : path.parent? = some parent) :
    ∃ above, other.parent? = some above ∧ above.same parent = true := by
  obtain ⟨notRoot, dropped⟩ := parts_parent found
  rw [is_root_congr same] at notRoot
  obtain ⟨above, otherFound⟩ := exists_parent notRoot
  refine ⟨above, otherFound, (same_iff_parts _ _).mpr ?_⟩
  rw [(parts_parent otherFound).2, dropped, (same_iff_parts _ _).mp same]

theorem parent_not_same {path parent : Path} (found : path.parent? = some parent) :
    parent.same path = false := by
  apply not_same_of_length
  rw [length_parent found]
  omega

theorem root_not_later (path : Path) : PathPart.root ∉ path.parts.tail := by
  have inTail (segments : List (List Char)) : PathPart.root ∉ tailParts segments := by
    intro member
    obtain ⟨segment, _, same⟩ := List.mem_map.mp member
    exact part_of_ne_root segment same
  rw [parts_eq_read]
  cases segments path.text.toList with
  | nil => exact List.not_mem_nil
  | cons first rest =>
      intro member
      rw [readSegments] at member
      cases head : headParts first (rest == []) with
      | nil =>
          rw [head, List.nil_append] at member
          exact inTail rest (List.mem_of_mem_tail member)
      | cons part others =>
          have alone : others = [] := by
            unfold headParts at head
            split at head
            · split at head
              · exact absurd head (by simp)
              · exact (List.cons.inj head).2.symm
            · split at head <;> exact (List.cons.inj head).2.symm
          rw [head, alone] at member
          exact inTail rest member

theorem is_child_of_parent {path parent : Path} (found : path.parent? = some parent) :
    path.isChildOf parent = true := by
  obtain ⟨notRoot, dropped⟩ := parts_parent found
  rw [Bool.eq_false_iff, Ne, is_root_iff, not_or] at notRoot
  have split := List.dropLast_concat_getLast notRoot.1
  refine (is_child_iff path parent).mpr ⟨path.parts.getLast notRoot.1, ?_, by rw [dropped, split]⟩
  intro last
  rw [last] at split
  cases front : path.parts.dropLast with
  | nil =>
      rw [front] at split
      exact notRoot.2 split.symm
  | cons head middle =>
      rw [front] at split
      apply root_not_later path
      rw [← split]
      simp

theorem parent_of_child {path base : Path} (child : path.isChildOf base = true) :
    ∃ parent, path.parent? = some parent ∧ parent.same base = true := by
  obtain ⟨parent, found⟩ := exists_parent (not_root_of_child child)
  obtain ⟨part, _, parts⟩ := (is_child_iff path base).mp child
  refine ⟨parent, found, (same_iff_parts _ _).mpr ?_⟩
  rw [(parts_parent found).2, parts, List.dropLast_concat]

theorem join_is_child_iff (base other : Path) (name : String) (plain : Plain name) :
    (base.join name).isChildOf other = true ↔ other.parts = base.parts := by
  rw [is_child_iff, parts_join base name plain]
  constructor
  · rintro ⟨part, _, same⟩
    exact (List.append_inj_left' same rfl).symm
  · intro same
    exact ⟨.named name, by simp, by rw [same]⟩

theorem is_child_congr {base other : Path} (same : base.same other = true) (path : Path) :
    path.isChildOf base = path.isChildOf other := by
  rw [Bool.eq_iff_iff, is_child_iff, is_child_iff, (same_iff_parts base other).mp same]

theorem name_of_parts (path : Path) (front : List PathPart) (name : String)
    (shape : path.parts = front ++ [.named name]) : path.name = name := by
  have upward : path.upward = .named name :: front.reverse := by
    rw [← List.reverse_inj, ← parts, shape]
    simp
  rw [Path.name, upward]

theorem name_join (base : Path) (name : String) (plain : Plain name) :
    (base.join name).name = name :=
  name_of_parts _ base.parts name (parts_join base name plain)

theorem name_congr {left right : Path} (same : left.same right = true) :
    left.name = right.name := by
  have upward : left.upward = right.upward := by simpa [Path.same] using same
  rw [Path.name, Path.name, upward]

theorem not_same_of_name {left right : Path} (different : left.name ≠ right.name) :
    left.same right = false := by
  rw [Bool.eq_false_iff]
  intro same
  exact different (name_congr same)

end ChunkStore.Path
