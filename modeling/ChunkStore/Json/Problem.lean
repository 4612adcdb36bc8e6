import ChunkStore.Number.Shortest
import ChunkStore.Text

/-!
What is wrong with a JSON text that should hold a value of some type: the text is no JSON, or the
value found is not of the form expected.
-/

namespace ChunkStore.Json

set_option autoImplicit false

open ChunkStore.Number

/-- A number as a text writes it. Whole numbers beyond 64 bits and negative zero are floating. -/
inductive Numeral
  | natural (value : Nat)
  | negative (magnitude : Nat)
  | floating (isNegative : Bool) (magnitude : Binary64)
deriving DecidableEq, Repr

inductive Found
  | null
  | boolean (value : Bool)
  | numeral (value : Numeral)
  | text (value : String)
  | sequence
  | map
deriving DecidableEq, Repr

inductive Problem
  | malformed
  | missingField (name : String)
  | duplicateField (name : String)
  | unknownVariant (name : String)
  | invalidType (found : Found) (expected : String)
  | invalidValue (found : Found) (expected : String)
  | invalidLength (length : Nat) (expected : String)
deriving DecidableEq, Repr

def zeros (count : Nat) : String := String.ofList (List.replicate count '0')

def exponentText (exponent : Int) : String :=
  (if exponent < 0 then "e-" else "e+") ++ toString exponent.natAbs

/-- The shortest text of a floating number: positional from 10^-5 to below 10^16 and with at
least one decimal, otherwise scientific. -/
def floatingText (isNegative : Bool) (magnitude : Binary64) : String :=
  let sign := if isNegative then "-" else ""
  let short := magnitude.shortest
  let digits := toString short.digits
  let leading : Int := digits.length + short.exponent - 1
  if short.digits = 0 then sign ++ "0.0"
  else if 0 ≤ leading ∧ leading ≤ 15 then
    if 0 ≤ short.exponent then sign ++ digits ++ zeros short.exponent.toNat ++ ".0"
    else
      let whole := (leading + 1).toNat
      sign ++ String.ofList (digits.toList.take whole) ++ "." ++
        String.ofList (digits.toList.drop whole)
  else if -5 ≤ leading ∧ leading < 0 then sign ++ "0." ++ zeros (-leading - 1).toNat ++ digits
  else
    let tail := String.ofList (digits.toList.drop 1)
    sign ++ String.ofList (digits.toList.take 1) ++ (if tail = "" then "" else "." ++ tail) ++
      exponentText leading

def Found.describe : Found → String
  | .null => "null"
  | .boolean value => s!"boolean `{value}`"
  | .numeral (.natural value) => s!"integer `{value}`"
  | .numeral (.negative magnitude) => s!"integer `-{magnitude}`"
  | .numeral (.floating isNegative magnitude) =>
      s!"floating point `{floatingText isNegative magnitude}`"
  | .text value => s!"string {Text.quoted value}"
  | .sequence => "sequence"
  | .map => "map"

def Problem.message : Problem → String
  | .malformed => "malformed JSON"
  | .missingField name => s!"missing field `{name}`"
  | .duplicateField name => s!"duplicate field `{name}`"
  | .unknownVariant name => s!"unknown variant `{name}`, expected `listing` or `by_name`"
  | .invalidType found expected => s!"invalid type: {found.describe}, expected {expected}"
  | .invalidValue found expected => s!"invalid value: {found.describe}, expected {expected}"
  | .invalidLength length expected => s!"invalid length {length}, expected {expected}"

end ChunkStore.Json
