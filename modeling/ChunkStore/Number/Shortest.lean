import ChunkStore.Number.Binary64

/-!
The shortest decimal text of a binary magnitude: of all decimals that are nearest to this
magnitude and no other, one with the fewest digits, and of those the nearest.
-/

namespace ChunkStore.Number

set_option autoImplicit false

/-- The value `digits * 10 ^ exponent`, where `digits` is written with no zero at its end. -/
structure ShortDecimal where
  digits : Nat
  exponent : Int
deriving DecidableEq, Repr

namespace Binary64

def compareDecimal (digits : Nat) (exponent : Int) (numerator denominator : Nat) : Ordering :=
  compare (digits * wholePower 10 exponent * denominator) (numerator * wholePower 10 (-exponent))

/-- The magnitude in quarters of its last bit, the interval of values that are rounded to it in
the same unit, and whether the ends of the interval belong to it. -/
def basin (value : Binary64) : Nat × Nat × Nat × Bool :=
  let low := if value.significand = Nat.pow 2 52 ∧ finest < value.exponent then 1 else 2
  let middle := 4 * value.significand
  (middle - low, middle, middle + 2, value.significand % 2 == 0)

def claims (value : Binary64) (digits : Nat) (exponent : Int) : Bool :=
  let (low, _, high, closed) := value.basin
  let scale := wholePower 2 value.exponent
  let unit := 4 * value.denominator
  match compareDecimal digits exponent (low * scale) unit,
      compareDecimal digits exponent (high * scale) unit with
  | .lt, _ => false
  | _, .gt => false
  | .eq, _ => closed
  | _, .eq => closed
  | _, _ => true

/-- The least power of ten above the magnitude, found near a guess from its binary logarithm. -/
def decimalWidth (value : Binary64) : Int :=
  let guess : Int := ((Nat.log2 value.significand : Int) + value.exponent) * 30103 / 100000
  let above (power : Int) : Bool :=
    compareDecimal 1 power value.numerator value.denominator == .gt
  ([guess - 1, guess, guess + 1, guess + 2].find? above).getD (guess + 2)

/-- The magnitude's neighbours on the grid of decimals with `count` digits, if one is claimed. -/
def onGrid? (value : Binary64) (count : Nat) : Option ShortDecimal :=
  let exponent := value.decimalWidth - count
  let below :=
    value.numerator * wholePower 10 (-exponent) / (value.denominator * wholePower 10 exponent)
  let above := below + 1
  let twice := 2 * value.numerator * wholePower 10 (-exponent)
  let middle := (below + above) * value.denominator * wholePower 10 exponent
  match value.claims below exponent, value.claims above exponent with
  | true, true =>
      if twice < middle ∨ (twice = middle ∧ below % 2 = 0) then some ⟨below, exponent⟩
      else some ⟨above, exponent⟩
  | true, false => some ⟨below, exponent⟩
  | false, true => some ⟨above, exponent⟩
  | false, false => none

def dropZeros : Nat → ShortDecimal → ShortDecimal
  | 0, number => number
  | fuel + 1, number =>
      if number.digits ≠ 0 ∧ number.digits % 10 = 0 then
        dropZeros fuel ⟨number.digits / 10, number.exponent + 1⟩
      else number

/-- Seventeen digits tell every two magnitudes apart, so a grid is always found. -/
def shortest (value : Binary64) : ShortDecimal :=
  if value.isZero then ⟨0, 0⟩
  else dropZeros 17
    (((List.range 17).findSome? fun index => value.onGrid? (index + 1)).getD ⟨0, 0⟩)

end Binary64

end ChunkStore.Number
