/-!
Byte strings and their two written forms: lower-case hexadecimal text and the
big-endian words that frame records and address them.
-/

namespace ChunkStore

set_option autoImplicit false

abbrev Bytes := List UInt8

namespace Bytes

def ofText (text : String) : Bytes := text.toUTF8.data.toList

def toText? (bytes : Bytes) : Option String := String.fromUTF8? ⟨bytes.toArray⟩

def hexDigit (nibble : Nat) : Char :=
  if nibble < 10 then Char.ofNat (48 + nibble) else Char.ofNat (87 + nibble)

def hex (bytes : Bytes) : String :=
  String.ofList (bytes.flatMap fun byte => [hexDigit (byte.toNat / 16), hexDigit (byte.toNat % 16)])

def nibble? (char : Char) : Option Nat :=
  if '0' ≤ char ∧ char ≤ '9' then some (char.toNat - 48)
  else if 'a' ≤ char ∧ char ≤ 'f' then some (char.toNat - 87)
  else none

/-- The bytes that pairs of lower-case digits write, after those already got, latest first. -/
def collectHex : List Char → Bytes → Option Bytes
  | [], got => some got.reverse
  | [_], _ => none
  | high :: low :: rest, got => do
      collectHex rest (UInt8.ofNat ((← nibble? high) * 16 + (← nibble? low)) :: got)

def ofHex? (text : String) : Option Bytes := collectHex text.toList []

/-- A word as four bytes, the most significant first. -/
def ofWord (word : UInt32) : Bytes :=
  [(word >>> 24).toUInt8, (word >>> 16).toUInt8, (word >>> 8).toUInt8, word.toUInt8]

/-- The number that a run of digits to the base 256 writes, the most significant first. -/
def toNat (bytes : Bytes) : Nat := bytes.foldl (fun value byte => value * 256 + byte.toNat) 0

/-- Byte strings compare as words of a dictionary do, byte by byte and a proper beginning first. -/
def le : Bytes → Bytes → Bool
  | [], _ => true
  | _ :: _, [] => false
  | left :: lefts, right :: rights =>
      if left < right then true else if right < left then false else le lefts rights

end Bytes

end ChunkStore
