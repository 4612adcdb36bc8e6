import ChunkStore.Number.Binary64

/-!
Decimal numbers in scientific form: an optional sign, digits with at most one point among or
beside them, and an optional power of ten.
-/

namespace ChunkStore.Number

set_option autoImplicit false

/-- The value `digits * 10 ^ exponent` with its sign; zero keeps its sign too. -/
structure Decimal where
  negative : Bool
  digits : Nat
  exponent : Int
deriving DecidableEq, Repr

def digitValue (char : Char) : Nat := char.toNat - 48

def digitsValue (digits : List Char) : Nat :=
  digits.foldl (fun value char => value * 10 + digitValue char) 0

namespace Decimal

/-- Digits of an exponent are read until it has reached 65536; the rest say nothing more, since
such a power is out of every range. -/
def exponentValue (digits : List Char) : Nat :=
  digits.foldl (fun value char => if value < 65536 then value * 10 + digitValue char else value) 0

def splitSign : List Char → Bool × List Char
  | '-' :: rest => (true, rest)
  | '+' :: rest => (false, rest)
  | text => (false, text)

def exponent? : List Char → Option Int
  | [] => some 0
  | mark :: text =>
      if mark = 'e' ∨ mark = 'E' then
        let (negative, digits) := splitSign text
        if digits ≠ [] ∧ digits.all Char.isDigit then
          let value : Int := exponentValue digits
          some (if negative then -value else value)
        else none
      else none

def parse? (text : List Char) : Option Decimal :=
  let (negative, unsigned) := splitSign text
  let whole := unsigned.takeWhile Char.isDigit
  let rest := unsigned.dropWhile Char.isDigit
  let (fraction, tail) := match rest with
    | '.' :: after => (after.takeWhile Char.isDigit, after.dropWhile Char.isDigit)
    | _ => ([], rest)
  if whole ++ fraction = [] then none
  else (exponent? tail).map fun exponent =>
    ⟨negative, digitsValue (whole ++ fraction), exponent - fraction.length⟩

/-- The nearest magnitude of the 64-bit binary format, or nothing on overflow. A power above
10^400 overflows whatever the digits are; a value below 2^-1076 is nearest to zero. -/
def toBinary64? (number : Decimal) : Option Binary64 :=
  if number.digits = 0 then some ⟨0, 0⟩
  else if 400 < number.exponent then none
  else if (Nat.log2 number.digits : Int) + 1 + 3 * number.exponent < -1076 then some ⟨0, 0⟩
  else Binary64.nearest (number.digits * wholePower 10 number.exponent)
    (wholePower 10 (-number.exponent))

end Decimal

end ChunkStore.Number
