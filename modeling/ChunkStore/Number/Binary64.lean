/-!
Magnitudes of the 64-bit binary floating-point format: whole numbers of at most 53 bits times a
power of two. A quotient goes to the nearest of them, and half-way to the one with the even
significand; from 2^1024 on it has none.
-/

namespace ChunkStore.Number

set_option autoImplicit false

/-- The whole number nearest to a quotient, the even one of two that are equally near. -/
def roundDiv (numerator denominator : Nat) : Nat :=
  let floor := numerator / denominator
  let rest := numerator % denominator
  if denominator < 2 * rest ∨ (2 * rest = denominator ∧ floor % 2 = 1) then floor + 1 else floor

/-- A power with a whole exponent, which is one below zero: a quotient of two of them is a power
with any exponent. -/
def wholePower (base : Nat) (exponent : Int) : Nat := Nat.pow base exponent.toNat

/-- The value `significand * 2 ^ exponent`. -/
structure Binary64 where
  significand : Nat
  exponent : Int
deriving DecidableEq, Repr

namespace Binary64

def finest : Int := -1074

def coarsest : Int := 971

/-- The power of two that the last bit of a quotient's significand stands for: the one that
leaves 53 bits, but no finer than `finest`. -/
def lastBit (numerator denominator : Nat) : Int :=
  let guess : Int := (Nat.log2 numerator : Int) - Nat.log2 denominator - 52
  let short :=
    numerator * wholePower 2 (-guess) < denominator * wholePower 2 guess * Nat.pow 2 52
  max (if short then guess - 1 else guess) finest

/-- A significand that rounding took up to 54 bits is a power of two, which 53 bits hold. -/
def settled (significand : Nat) (exponent : Int) : Binary64 :=
  if significand = Nat.pow 2 53 then ⟨Nat.pow 2 52, exponent + 1⟩ else ⟨significand, exponent⟩

/-- The magnitude nearest to `numerator / denominator`, or nothing where that overflows. -/
def nearest (numerator denominator : Nat) : Option Binary64 :=
  if numerator = 0 then some ⟨0, 0⟩
  else
    let exponent := lastBit numerator denominator
    let rounded :=
      roundDiv (numerator * wholePower 2 (-exponent)) (denominator * wholePower 2 exponent)
    let value := settled rounded exponent
    if coarsest < value.exponent then none else some value

def numerator (value : Binary64) : Nat := value.significand * wholePower 2 value.exponent

def denominator (value : Binary64) : Nat := wholePower 2 (-value.exponent)

def floor (value : Binary64) : Nat := value.numerator / value.denominator

def isZero (value : Binary64) : Bool := value.significand == 0

def mul (left right : Binary64) : Option Binary64 :=
  nearest (left.numerator * right.numerator) (left.denominator * right.denominator)

def div (left right : Binary64) : Option Binary64 :=
  nearest (left.numerator * right.denominator) (left.denominator * right.numerator)

def add (left right : Binary64) : Option Binary64 :=
  nearest (left.numerator * right.denominator + right.numerator * left.denominator)
    (left.denominator * right.denominator)

/-- The magnitude times a power of two, which changes no bit of the significand. -/
def shift (value : Binary64) (bits : Nat) : Binary64 := ⟨value.significand, value.exponent + bits⟩

end Binary64

end ChunkStore.Number
