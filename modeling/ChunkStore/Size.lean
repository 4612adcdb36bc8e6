import ChunkStore.Number.Decimal
import ChunkStore.Text
import ChunkStore.Text.UpperCase

/-!
Sizes in bytes as people write them: read from a decimal number with an optional unit, and
shown in the largest binary unit that leaves at least one of it.
-/

namespace ChunkStore.Size

set_option autoImplicit false

open ChunkStore.Number

/-- The units a size may end with, longest first so that a lone B is tried last, and the power
of two that each stands for. -/
def units : List (List Char × Nat) :=
  [(['T', 'B'], 40), (['G', 'B'], 30), (['M', 'B'], 20), (['K', 'B'], 10), (['B'], 0)]

/-- The text before its unit and the power of two of that unit; a number alone counts bytes. -/
def splitUnit (text : List Char) : List Char × Nat :=
  match units.find? (fun entry => entry.1.isSuffixOf text) with
  | some (unit, bits) => (text.take (text.length - unit.length), bits)
  | none => (text, 0)

def largest : Nat := UInt64.size - 1

def normalize (text : List Char) : List Char := Text.upper (Text.trim text)

/-- The size that a normalized text writes. The number is rounded to the 64-bit binary format,
multiplied by its unit, cut to whole bytes and held at the largest size. Overflowing and
negative numbers are no sizes, but a negative number that rounds to zero is one. -/
def parseNormal? (text : List Char) : Option Nat :=
  let (written, bits) := splitUnit text
  match Decimal.parse? (Text.trim written) with
  | none => none
  | some number =>
    match number.toBinary64? with
    | none => none
    | some magnitude =>
      if number.negative ∧ ¬ magnitude.isZero then none
      else some (min (magnitude.shift bits).floor largest)

/-- The size that a text writes, or what the text was read as when it writes none. -/
def parse (text : String) : Except String Nat :=
  let normal := normalize text.toList
  match parseNormal? normal with
  | some size => .ok size
  | none => .error (String.ofList normal)

def unitNames : List String := ["B", "KiB", "MiB", "GiB", "TiB", "PiB", "EiB"]

def unitName (power : Nat) : String := unitNames.getD power ""

def unitPower (magnitude : Nat) : Nat := Nat.log2 magnitude / 10

/-- A quotient with two decimals, half-way to the even neighbour. -/
def twoDecimals (numerator denominator : Nat) : String :=
  let hundredths := roundDiv (100 * numerator) denominator
  let fraction := hundredths % 100
  s!"{hundredths / 100}.{fraction / 10}{fraction % 10}"

/-- A size in its unit, after rounding to the 64-bit binary format: no decimals for a whole
number of units, else two. A fraction of at most 2^-52 counts as none. -/
def render (size : Nat) : String :=
  match Binary64.nearest size 1 with
  | none => ""
  | some value =>
    let bytes := value.floor
    let power := unitPower bytes
    let unit := Nat.pow 1024 power
    let shown := if bytes % unit * Nat.pow 2 52 ≤ unit then toString (bytes / unit)
      else twoDecimals bytes unit
    s!"{shown} {unitName power}"

def groupDigits : List Char → List Char
  | [] => []
  | digit :: rest =>
      if rest ≠ [] ∧ rest.length % 3 = 0 then digit :: ',' :: groupDigits rest
      else digit :: groupDigits rest

def grouped (number : Nat) : String := String.ofList (groupDigits (toString number).toList)

end ChunkStore.Size
