import ChunkStore.Config
import ChunkStore.Proofs.Rounding
import Mathlib.Data.List.Basic

/-!
Sizes that are written as a whole number of a unit. However long the number, whatever the case of
the unit and wherever the blanks, a check of the size's bounds passes exactly the size that was
written or none: reading may round a size, but no size out of bounds is rounded into them.
-/

namespace ChunkStore

set_option autoImplicit false

open ChunkStore.Number

/-! Blanks, digits and capitals -/

namespace Text

theorem of_codes {P : Char → Prop} {codes : List Nat} (each : ∀ code ∈ codes, P (Char.ofNat code))
    {char : Char} (member : char.toNat ∈ codes) : P char := by
  have here := each char.toNat member
  rwa [Char.ofNat_toNat] at here

def blankCodes : List Nat :=
  List.range' 9 5 ++ [0x20, 0x85, 0xa0, 0x1680] ++ List.range' 0x2000 11 ++
    [0x2028, 0x2029, 0x202f, 0x205f, 0x3000]

def digitCodes : List Nat := List.range' 48 10

theorem code_of_blank {char : Char} (blank : isBlank char = true) : char.toNat ∈ blankCodes := by
  simp only [isBlank, Bool.or_eq_true, Bool.and_eq_true, decide_eq_true_eq, beq_iff_eq] at blank
  simp only [blankCodes, List.mem_append, List.mem_range'_1, List.mem_cons, List.not_mem_nil,
    or_false]
  omega

theorem code_of_digit {char : Char} (digit : char.isDigit = true) : char.toNat ∈ digitCodes := by
  have bounds : 48 ≤ char.toNat ∧ char.toNat ≤ 57 := Char.isDigit_iff_toNat.mp digit
  rw [digitCodes, List.mem_range'_1]
  omega

theorem upper_blank {char : Char} (blank : isBlank char = true) : upperChar char = [char] :=
  of_codes (P := fun char => upperChar char = [char]) (by decide +kernel) (code_of_blank blank)

theorem upper_digit {char : Char} (digit : char.isDigit = true) : upperChar char = [char] :=
  of_codes (P := fun char => upperChar char = [char]) (by decide) (code_of_digit digit)

theorem digit_not_blank {char : Char} (digit : char.isDigit = true) : isBlank char = false :=
  of_codes (P := fun char => isBlank char = false) (by decide) (code_of_digit digit)

theorem upper_of_ascii {char : Char} (ascii : char.toUpper.toNat < 128) :
    upperChar char = [char.toUpper] := by
  refine if_pos ?_
  by_contra beyond
  have same : char.toUpper = char := by
    refine dif_neg fun lower => beyond ?_
    exact Nat.lt_of_le_of_lt (UInt32.le_iff_toNat_le.mp lower.2) (by decide)
  rw [same] at ascii
  exact beyond ascii

theorem upper_append (front back : List Char) :
    upper (front ++ back) = upper front ++ upper back :=
  List.flatMap_append

/-- Characters with one capital each are written with those capitals. -/
theorem upper_eq_map {text : List Char} {capital : Char → Char}
    (each : ∀ char ∈ text, upperChar char = [capital char]) : upper text = text.map capital := by
  rw [upper, List.flatMap_congr each, List.map_eq_flatMap]

theorem upper_eq_self {text : List Char} (each : ∀ char ∈ text, upperChar char = [char]) :
    upper text = text := by
  rw [upper_eq_map each, List.map_id']

theorem trim_surrounded {front core back : List Char}
    (blank_front : ∀ char ∈ front, isBlank char = true)
    (blank_back : ∀ char ∈ back, isBlank char = true) (some_char : core ≠ [])
    (shown_first : ∀ char ∈ core.head?, isBlank char = false)
    (shown_last : ∀ char ∈ core.getLast?, isBlank char = false) :
    trim (front ++ (core ++ back)) = core := by
  have front_cut : (front ++ (core ++ back)).dropWhile isBlank = core ++ back := by
    rw [List.dropWhile_append_of_pos blank_front]
    rcases List.exists_cons_of_ne_nil some_char with ⟨first, rest, rfl⟩
    refine List.dropWhile_cons_of_neg (Bool.eq_false_iff.mp (shown_first first ?_))
    exact List.head?_cons
  have back_cut : (core ++ back).reverse.dropWhile isBlank = core.reverse := by
    rw [List.reverse_append,
      List.dropWhile_append_of_pos fun char member => blank_back char (List.mem_reverse.mp member)]
    rcases (List.eq_nil_or_concat core).resolve_left some_char with ⟨rest, last, rfl⟩
    rw [List.concat_eq_append, List.reverse_append]
    refine List.dropWhile_cons_of_neg (Bool.eq_false_iff.mp (shown_last last ?_))
    rw [List.concat_eq_append, List.getLast?_concat, Option.mem_some]
  rw [trim, front_cut, back_cut, List.reverse_reverse]

end Text

/-! Digits as a number -/

namespace Number

theorem digits_value (digits : List Char) : digitsValue digits = Nat.ofDigitChars 10 digits 0 := by
  have steps : (fun value char => value * 10 + digitValue char) =
      fun value (char : Char) => 10 * value + (char.toNat - '0'.toNat) := by
    funext value char
    rw [Nat.mul_comm]
    rfl
  rw [digitsValue, steps]
  rfl

theorem split_sign_digit {digit : Char} (isDigit : digit.isDigit = true) (rest : List Char) :
    Decimal.splitSign (digit :: rest) = (false, digit :: rest) := by
  unfold Decimal.splitSign
  split
  · rename_i same
    rw [(List.cons.inj same).1] at isDigit
    exact absurd isDigit (by decide)
  · rename_i same
    rw [(List.cons.inj same).1] at isDigit
    exact absurd isDigit (by decide)
  · rfl

theorem parse_digits {digits : List Char} (some_digit : digits ≠ [])
    (all : ∀ char ∈ digits, char.isDigit = true) :
    Decimal.parse? digits = some ⟨false, Nat.ofDigitChars 10 digits 0, 0⟩ := by
  rcases List.exists_cons_of_ne_nil some_digit with ⟨first, rest, rfl⟩
  have taken : (first :: rest).takeWhile Char.isDigit = first :: rest := by
    have whole := @List.takeWhile_append_of_pos _ Char.isDigit _ [] all
    rwa [List.append_nil, List.takeWhile_nil, List.append_nil] at whole
  have left : (first :: rest).dropWhile Char.isDigit = [] := by
    have whole := @List.dropWhile_append_of_pos _ Char.isDigit _ [] all
    rwa [List.append_nil, List.dropWhile_nil] at whole
  rw [← digits_value]
  simp [Decimal.parse?, split_sign_digit (all first List.mem_cons_self), taken, left,
    Decimal.exponent?]

end Number

/-! Written sizes -/

namespace Size

def unitBytes : List (List Char × Nat) :=
  [([], 1), (['B'], 1), (['K', 'B'], 2 ^ 10), (['M', 'B'], 2 ^ 20), (['G', 'B'], 2 ^ 30),
    (['T', 'B'], 2 ^ 40)]

def unitLetters : List Char := ['B', 'K', 'M', 'G', 'T']

theorem letter_of_unit {name : List Char} {bytes : Nat} (known : (name, bytes) ∈ unitBytes)
    {char : Char} (member : char ∈ name) : char ∈ unitLetters := by
  have all : ∀ entry ∈ unitBytes, ∀ char ∈ entry.1, char ∈ unitLetters := by
    simp [unitBytes, unitLetters]
  exact all _ known char member

theorem not_letter {char : Char} (other : char.isDigit = true ∨ Text.isBlank char = true) :
    char ∉ unitLetters := by
  have none : ∀ letter ∈ unitLetters, (letter.isDigit || Text.isBlank letter) = false := by
    simp [unitLetters, Text.isBlank]
  intro letter
  exact Bool.eq_false_iff.mp (none char letter) (Bool.or_eq_true_iff.mpr other)

theorem cut_unit {text name : List Char} {bits : Nat}
    (found : units.find? (fun entry => entry.1.isSuffixOf (text ++ name)) = some (name, bits)) :
    splitUnit (text ++ name) = (text, bits) := by
  simp only [splitUnit, found, List.length_append, Nat.add_sub_cancel, List.take_left]

/-- A unit is told from the text before it, if that does not end with a letter of a unit. -/
theorem split_unit {name : List Char} {bytes : Nat} (known : (name, bytes) ∈ unitBytes)
    {rest : List Char} {last : Char} (other : last ∉ unitLetters) :
    ∃ bits, bytes = 2 ^ bits ∧ splitUnit (rest ++ [last] ++ name) = (rest ++ [last], bits) := by
  simp only [unitLetters, List.mem_cons, List.not_mem_nil, or_false, not_or] at other
  rcases other with ⟨notB, notK, notM, notG, notT⟩
  simp only [unitBytes, List.mem_cons, List.not_mem_nil, or_false, Prod.mk.injEq] at known
  rcases known with
    ⟨rfl, rfl⟩ | ⟨rfl, rfl⟩ | ⟨rfl, rfl⟩ | ⟨rfl, rfl⟩ | ⟨rfl, rfl⟩ | ⟨rfl, rfl⟩
  · exact ⟨0, rfl, by simp [splitUnit, units, List.isSuffixOf, Ne.symm notB]⟩
  · exact ⟨0, rfl, cut_unit (by
      simp [units, List.isSuffixOf, Ne.symm notK, Ne.symm notM, Ne.symm notG, Ne.symm notT])⟩
  · exact ⟨10, rfl, cut_unit (by simp [units, List.isSuffixOf])⟩
  · exact ⟨20, rfl, cut_unit (by simp [units, List.isSuffixOf])⟩
  · exact ⟨30, rfl, cut_unit (by simp [units, List.isSuffixOf])⟩
  · exact ⟨40, rfl, cut_unit (by simp [units, List.isSuffixOf])⟩

/-- A whole number of a unit as it may be written: any digits, the unit in any case, and blanks
before, between and after them. -/
structure Written where
  front : List Char
  digits : List Char
  between : List Char
  unit : List Char
  back : List Char
  bytes : Nat
  blank : ∀ char ∈ front ++ between ++ back, Text.isBlank char = true
  digits_ne_nil : digits ≠ []
  digits_all : ∀ char ∈ digits, char.isDigit = true
  known : (unit.map Char.toUpper, bytes) ∈ unitBytes

namespace Written

variable (written : Written)

def text : String :=
  String.ofList (written.front ++ written.digits ++ written.between ++ written.unit ++ written.back)

def number : Nat := Nat.ofDigitChars 10 written.digits 0

def size : Nat := written.number * written.bytes

theorem blank_front : ∀ char ∈ written.front, Text.isBlank char = true :=
  fun char member => written.blank char (by simp [member])

theorem blank_between : ∀ char ∈ written.between, Text.isBlank char = true :=
  fun char member => written.blank char (by simp [member])

theorem blank_back : ∀ char ∈ written.back, Text.isBlank char = true :=
  fun char member => written.blank char (by simp [member])

theorem upper_digits : Text.upper written.digits = written.digits :=
  Text.upper_eq_self fun char member => Text.upper_digit (written.digits_all char member)

theorem letter_of_char {char : Char} (member : char ∈ written.unit) :
    char.toUpper ∈ unitLetters :=
  letter_of_unit written.known (List.mem_map_of_mem member)

theorem upper_unit_char {char : Char} (member : char ∈ written.unit) :
    Text.upperChar char = [char.toUpper] := by
  have ascii : ∀ letter ∈ unitLetters, letter.toNat < 128 := by simp [unitLetters]
  exact Text.upper_of_ascii (ascii _ (written.letter_of_char member))

theorem shown_digit : ∀ char ∈ written.digits, Text.isBlank char = false :=
  fun char member => Text.digit_not_blank (written.digits_all char member)

/-- No blank has a letter of a unit as its capital, since blanks are their own capitals. -/
theorem shown_unit : ∀ char ∈ written.unit, Text.isBlank char = false := by
  intro char member
  by_contra blank
  rw [Bool.not_eq_false] at blank
  have same := (Text.upper_blank blank).symm.trans (written.upper_unit_char member)
  have letter := written.letter_of_char member
  rw [← List.singleton_inj.mp same] at letter
  exact not_letter (Or.inr blank) letter

/-- Reading keeps the digits and the unit in capitals, and blanks only between the two. -/
theorem normalize_text : ∃ between, (∀ char ∈ between, Text.isBlank char = true) ∧
    normalize written.text.toList =
      written.digits ++ between ++ written.unit.map Char.toUpper := by
  by_cases alone : written.unit = []
  · have laid : written.text.toList =
        written.front ++ (written.digits ++ (written.between ++ written.back)) := by
      simp [text, alone]
    have blanks : ∀ char ∈ written.between ++ written.back, Text.isBlank char = true :=
      fun char member => (List.mem_append.mp member).elim (written.blank_between char)
        (written.blank_back char)
    refine ⟨[], fun char member => absurd member List.not_mem_nil, ?_⟩
    rw [normalize, laid, Text.trim_surrounded written.blank_front blanks written.digits_ne_nil
      (fun char first => written.shown_digit char (List.mem_of_mem_head? first))
      (fun char last => written.shown_digit char (List.mem_of_mem_getLast? last)),
      written.upper_digits, alone, List.map_nil, List.append_nil, List.append_nil]
  · have laid : written.text.toList = written.front ++
        (written.digits ++ (written.between ++ written.unit) ++ written.back) := by
      simp [text]
    refine ⟨written.between, written.blank_between, ?_⟩
    rw [normalize, laid, Text.trim_surrounded written.blank_front written.blank_back]
    · rw [Text.upper_append, Text.upper_append, written.upper_digits,
        Text.upper_eq_self fun char member => Text.upper_blank (written.blank_between char member),
        Text.upper_eq_map fun char member => written.upper_unit_char member, List.append_assoc]
    · simp [written.digits_ne_nil]
    · intro char first
      rw [List.head?_append_of_ne_nil _ written.digits_ne_nil] at first
      exact written.shown_digit char (List.mem_of_mem_head? first)
    · intro char last
      rw [← List.append_assoc, List.getLast?_append_of_ne_nil _ alone] at last
      exact written.shown_unit char (List.mem_of_mem_getLast? last)

/-- What a written size is read as: its number, rounded and then multiplied by its unit. -/
theorem parse_normal : ∃ bits, written.bytes = 2 ^ bits ∧
    parseNormal? (normalize written.text.toList) = (Binary64.nearest written.number 1).map
      fun value => min (value.shift bits).floor largest := by
  rcases written.normalize_text with ⟨between, blank, normal⟩
  have some_char : written.digits ++ between ≠ [] := by simp [written.digits_ne_nil]
  rcases (List.eq_nil_or_concat _).resolve_left some_char with ⟨rest, last, laid⟩
  rw [List.concat_eq_append] at laid
  have other : last ∉ unitLetters := by
    have member : last ∈ written.digits ++ between := by simp [laid]
    exact not_letter ((List.mem_append.mp member).imp (written.digits_all last) (blank last))
  have trimmed : Text.trim (written.digits ++ between) = written.digits :=
    Text.trim_surrounded (fun char member => absurd member List.not_mem_nil) blank
      written.digits_ne_nil
      (fun char first => written.shown_digit char (List.mem_of_mem_head? first))
      (fun char last => written.shown_digit char (List.mem_of_mem_getLast? last))
  rcases @split_unit _ _ written.known rest last other with ⟨bits, same, split⟩
  refine ⟨bits, same, ?_⟩
  rw [normal, laid, parseNormal?, split, ← laid]
  simp only [trimmed, parse_digits written.digits_ne_nil written.digits_all,
    Decimal.to_binary_whole]
  rw [number]
  cases Binary64.nearest (Nat.ofDigitChars 10 written.digits 0) 1 with
  | none => rfl
  | some value => rfl

/-- A size below the limit of the whole numbers is read exactly; every other one is read as a size
that is not below that limit, or not read at all. -/
theorem parse_size_cases :
    (written.size < Binary64.wholeLimit ∧ parseSize written.text = .ok written.size) ∨
      (Binary64.wholeLimit ≤ written.size ∧
        ∀ size, parseSize written.text = .ok size → Binary64.wholeLimit ≤ size) := by
  rcases written.parse_normal with ⟨bits, same, normal⟩
  have limit : Binary64.wholeLimit ≤ largest := by decide
  by_cases small : written.number < Binary64.wholeLimit
  · rcases Binary64.nearest_exact small with ⟨value, rounded, whole⟩
    have read : parseSize written.text = .ok (min written.size largest) := by
      rw [parseSize, parse, normal, rounded, size, same, ← whole bits]
      rfl
    rcases Nat.lt_or_ge written.size Binary64.wholeLimit with below | beyond
    · refine Or.inl ⟨below, ?_⟩
      rw [read, Nat.min_eq_left (Nat.le_trans (Nat.le_of_lt below) limit)]
    · refine Or.inr ⟨beyond, fun size held => ?_⟩
      rw [read] at held
      exact Except.ok.inj held ▸ Nat.le_min.mpr ⟨beyond, limit⟩
  · have large : Binary64.wholeLimit ≤ written.number := Nat.le_of_not_lt small
    refine Or.inr ⟨?_, fun size held => ?_⟩
    · rw [size, same]
      exact Nat.le_trans large (Nat.le_mul_of_pos_right _ (Nat.two_pow_pos bits))
    · rw [parseSize, parse, normal] at held
      cases rounded : Binary64.nearest written.number 1 with
      | none =>
        rw [rounded] at held
        cases held
      | some value =>
        rw [rounded] at held
        have floor := Binary64.nearest_large large rounded bits
        exact Except.ok.inj held ▸ Nat.le_min.mpr ⟨floor, limit⟩

end Written

/-- A check of bounds below the limit of the whole numbers passes just the written sizes that are
within them. -/
theorem Written.bounded {check : Nat → Except ConfigError Nat} {low high : Nat}
    (checks : ∀ size, (check size).toOption = if low ≤ size ∧ size ≤ high then some size else none)
    (small : high < Binary64.wholeLimit) (written : Written) :
    (parseSize written.text >>= check).toOption =
      if low ≤ written.size ∧ written.size ≤ high then some written.size else none := by
  rcases written.parse_size_cases with ⟨-, read⟩ | ⟨beyond, larger⟩
  · rw [read]
    exact checks written.size
  · rw [if_neg (by omega)]
    cases read : parseSize written.text with
    | error error => rfl
    | ok size =>
      have far := larger size read
      show (check size).toOption = none
      rw [checks, if_neg (by omega)]

theorem validate_chunk_size (size : Nat) : (validateChunkSize size).toOption =
    if minChunkSize ≤ size ∧ size ≤ maxChunkSize then some size else none := by
  rw [validateChunkSize]
  split <;> rfl

theorem validate_buffer_size (size : Nat) : (validateBufferSize size).toOption =
    if 1 ≤ size ∧ size ≤ maxBufferSize then some size else none := by
  rw [validateBufferSize]
  split <;> rfl

/-- A whole number of a unit is a chunk size or a buffer size exactly as written if it is within
the bounds of one, and otherwise it is rejected. -/
theorem Written.exact_or_rejected (written : Written) :
    (parseSize written.text >>= validateChunkSize).toOption =
        (if minChunkSize ≤ written.size ∧ written.size ≤ maxChunkSize then some written.size
          else none) ∧
      (parseSize written.text >>= validateBufferSize).toOption =
        (if 1 ≤ written.size ∧ written.size ≤ maxBufferSize then some written.size else none) :=
  ⟨written.bounded validate_chunk_size (by decide),
    written.bounded validate_buffer_size (by decide)⟩

def paddedKilobytes : Written where
  front := [' ']
  digits := ['0', '0', '6', '4']
  between := [' ']
  unit := ['k', 'B']
  back := ['\t']
  bytes := 2 ^ 10
  blank := List.all_eq_true.mp (by decide)
  digits_ne_nil := by decide
  digits_all := List.all_eq_true.mp (by decide)
  known := by decide

theorem padded_kilobytes :
    (parseSize " 0064 kB\t" >>= validateChunkSize).toOption = some 65536 ∧
      (parseSize " 0064 kB\t" >>= validateBufferSize).toOption = some 65536 :=
  Written.exact_or_rejected paddedKilobytes

end Size

end ChunkStore
