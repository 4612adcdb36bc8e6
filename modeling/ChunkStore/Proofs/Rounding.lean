import ChunkStore.Number.Decimal
import Mathlib.Tactic.Ring

/-!
Rounding whole numbers to the 64-bit binary format. Below 2^53 they are kept exactly, in every unit
that is a power of two; from there on they may be rounded or overflow, but never to less than 2^53.
-/

namespace ChunkStore.Number

set_option autoImplicit false

theorem whole_power_cast (base exponent : Nat) :
    wholePower base (exponent : Int) = base ^ exponent := rfl

theorem whole_power_of_nonpos (base : Nat) {exponent : Int} (nonpos : exponent ≤ 0) :
    wholePower base exponent = 1 := by
  rw [wholePower, Int.toNat_of_nonpos nonpos]
  rfl

theorem round_div_one (number : Nat) : roundDiv number 1 = number := by
  simp [roundDiv, Nat.mod_one]

theorem div_le_round_div (numerator denominator : Nat) :
    numerator / denominator ≤ roundDiv numerator denominator := by
  simp only [roundDiv]
  split
  · exact Nat.le_succ _
  · exact Nat.le_refl _

namespace Binary64

/-- The whole numbers below this one are kept exactly. -/
def wholeLimit : Nat := 2 ^ 53

/-- A whole number has 53 bits from its first one on, or ends in zeros after the point. -/
theorem last_bit_whole {number : Nat} (positive : number ≠ 0) :
    lastBit number 1 = (Nat.log2 number : Int) - 52 := by
  have one : Nat.log2 1 = 0 := by decide
  have low := Nat.log2_self_le positive
  have long : ¬ number * wholePower 2 (-((Nat.log2 number : Int) - 52)) <
      1 * wholePower 2 ((Nat.log2 number : Int) - 52) * Nat.pow 2 52 := by
    rw [Nat.not_lt, Nat.one_mul, Nat.pow_eq]
    rcases Nat.le_total 52 (Nat.log2 number) with many | few
    · rcases Nat.exists_eq_add_of_le many with ⟨more, split⟩
      have up : (Nat.log2 number : Int) - 52 = (more : Int) := by omega
      rw [up, whole_power_cast, whole_power_of_nonpos 2 (by omega), Nat.mul_one, ← Nat.pow_add,
        Nat.add_comm, ← split]
      exact low
    · rcases Nat.exists_eq_add_of_le few with ⟨less, split⟩
      have down : -((Nat.log2 number : Int) - 52) = (less : Int) := by omega
      rw [down, whole_power_cast, whole_power_of_nonpos 2 (by omega), Nat.one_mul, split,
        Nat.pow_add]
      exact Nat.mul_le_mul_right _ low
  simp only [lastBit, one, Nat.cast_zero, sub_zero]
  rw [if_neg long]
  exact max_eq_left (by simp only [finest]; omega)

theorem floor_shift (significand bits : Nat) (exponent : Int) :
    ((⟨significand, exponent⟩ : Binary64).shift bits).floor =
      significand * wholePower 2 (exponent + bits) / wholePower 2 (-(exponent + bits)) := rfl

theorem settled_below {significand : Nat} (below : significand < 2 ^ 53) (exponent : Int) :
    settled significand exponent = ⟨significand, exponent⟩ :=
  if_neg (Nat.ne_of_lt below)

/-- A whole number below the limit is a magnitude of the format, and so is its product with a power
of two. -/
theorem nearest_exact {number : Nat} (small : number < wholeLimit) :
    ∃ value, nearest number 1 = some value ∧
      ∀ bits, (value.shift bits).floor = number * 2 ^ bits := by
  by_cases zero : number = 0
  · refine ⟨⟨0, 0⟩, if_pos zero, ?_⟩
    intro bits
    rw [floor_shift, zero, Nat.zero_mul, Nat.zero_mul, Nat.zero_div]
  have short : Nat.log2 number ≤ 52 := Nat.le_of_lt_succ ((Nat.log2_lt zero).mpr small)
  rcases Nat.exists_eq_add_of_le short with ⟨less, split⟩
  have exponent : lastBit number 1 = -(less : Int) := by
    rw [last_bit_whole zero]
    omega
  have bounded : number * 2 ^ less < 2 ^ 53 := by
    have high := Nat.mul_lt_mul_of_pos_right (Nat.lt_log2_self (n := number)) (Nat.two_pow_pos less)
    rwa [← Nat.pow_add, show Nat.log2 number + 1 + less = 53 by omega] at high
  refine ⟨⟨number * 2 ^ less, -(less : Int)⟩, ?_, ?_⟩
  · rw [nearest, if_neg zero]
    simp only [exponent, Int.neg_neg]
    rw [whole_power_cast, whole_power_of_nonpos 2 (by omega), Nat.mul_one, round_div_one,
      settled_below bounded, if_neg (by simp only [coarsest]; omega)]
  · intro bits
    rw [floor_shift]
    rcases Nat.le_total less bits with up | down
    · rcases Nat.exists_eq_add_of_le up with ⟨more, rfl⟩
      rw [show -(less : Int) + (less + more : Nat) = (more : Int) by omega, whole_power_cast,
        whole_power_of_nonpos 2 (by omega), Nat.div_one, Nat.mul_assoc, Nat.pow_add]
    · rcases Nat.exists_eq_add_of_le down with ⟨more, rfl⟩
      rw [show -((bits + more : Nat) : Int) + bits = -(more : Int) by omega, Int.neg_neg,
        whole_power_cast, whole_power_of_nonpos 2 (by omega), Nat.mul_one, Nat.pow_add,
        ← Nat.mul_assoc, Nat.mul_div_cancel _ (Nat.two_pow_pos more)]

/-- What rounding settles on has at least the value that was rounded to. -/
theorem settled_floor (significand exponent bits : Nat) :
    significand * 2 ^ (exponent + bits) ≤ ((settled significand exponent).shift bits).floor := by
  rw [settled]
  split
  · rename_i full
    rw [floor_shift,
      show (exponent : Int) + 1 + bits = ((exponent + bits + 1 : Nat) : Int) by omega,
      whole_power_cast, whole_power_of_nonpos 2 (by omega), Nat.div_one, full, Nat.pow_eq,
      Nat.pow_eq]
    exact Nat.le_of_eq (by ring)
  · rw [floor_shift, show (exponent : Int) + bits = ((exponent + bits : Nat) : Int) by omega,
      whole_power_cast, whole_power_of_nonpos 2 (by omega), Nat.div_one]

/-- A whole number from the limit on is rounded to no less than the limit, or it overflows. -/
theorem nearest_large {number : Nat} (large : wholeLimit ≤ number) {value : Binary64}
    (rounded : nearest number 1 = some value) (bits : Nat) :
    wholeLimit ≤ (value.shift bits).floor := by
  have positive : number ≠ 0 := Nat.ne_of_gt (Nat.lt_of_lt_of_le (by decide) large)
  rcases Nat.exists_eq_add_of_le ((Nat.le_log2 positive).mpr large) with ⟨more, split⟩
  have exponent : lastBit number 1 = ((more + 1 : Nat) : Int) := by
    rw [last_bit_whole positive]
    omega
  have significand : 2 ^ 52 ≤ roundDiv number (2 ^ (more + 1)) := by
    refine Nat.le_trans ?_ (div_le_round_div _ _)
    rw [Nat.le_div_iff_mul_le (Nat.two_pow_pos _), ← Nat.pow_add,
      show 52 + (more + 1) = Nat.log2 number by omega]
    exact Nat.log2_self_le positive
  rw [nearest, if_neg positive] at rounded
  simp only [exponent, whole_power_cast, Nat.one_mul] at rounded
  rw [whole_power_of_nonpos 2 (by omega), Nat.mul_one] at rounded
  split at rounded
  · cases rounded
  · rw [← Option.some.inj rounded]
    calc wholeLimit = 2 ^ 52 * 2 ^ 1 := by decide
      _ ≤ roundDiv number (2 ^ (more + 1)) * 2 ^ (more + 1 + bits) :=
          Nat.mul_le_mul significand (Nat.pow_le_pow_right (by decide) (by omega))
      _ ≤ _ := settled_floor _ _ _

end Binary64

namespace Decimal

/-- The magnitude of a whole number that was written without a point or a power of ten. -/
theorem to_binary_whole (negative : Bool) (number : Nat) :
    (⟨negative, number, 0⟩ : Decimal).toBinary64? = Binary64.nearest number 1 := by
  rw [toBinary64?]
  by_cases zero : number = 0
  · simp [zero, Binary64.nearest]
  · have powers : wholePower 10 0 = 1 := rfl
    simp only [if_neg zero]
    rw [if_neg (by decide), if_neg (by omega), Int.neg_zero, powers, Nat.mul_one]

end Decimal

end ChunkStore.Number
