import ChunkStore.Json.Problem
import ChunkStore.Number.Decimal

/-!
Reading values out of a JSON text from left to right. The first problem met wins, so a value of
the wrong form is reported before anything wrong behind it. A record may be written as an object,
whose unknown members are skipped, or as an array of its fields in order.
-/

namespace ChunkStore.Json

set_option autoImplicit false

open ChunkStore.Number

abbrev Reader := StateT (List Char) (Except Problem)

def malformed {α : Type} : Reader α := throw .malformed

def isSpace (char : Char) : Bool :=
  char == ' ' || char == '\n' || char == '\t' || char == '\r'

/-- Skips space and gives the next character without taking it; the end is malformed. -/
def peek : Reader Char := do
  let rest := (← get).dropWhile isSpace
  set rest
  match rest with
  | [] => malformed
  | char :: _ => pure char

def skip : Reader Unit := modify (·.drop 1)

def word (expected : List Char) : Reader Unit := do
  let text ← get
  if expected.isPrefixOf text then set (text.drop expected.length) else malformed

/-! Strings -/

def hexValue? (char : Char) : Option Nat :=
  if '0' ≤ char ∧ char ≤ '9' then some (char.toNat - 48)
  else if 'a' ≤ char ∧ char ≤ 'f' then some (char.toNat - 87)
  else if 'A' ≤ char ∧ char ≤ 'F' then some (char.toNat - 55)
  else none

def hexWord? (first second third fourth : Char) : Option Nat := do
  let a ← hexValue? first
  let b ← hexValue? second
  let c ← hexValue? third
  let d ← hexValue? fourth
  pure (((a * 16 + b) * 16 + c) * 16 + d)

def shortEscape? (char : Char) : Option Char :=
  match char with
  | '\x22' => some '\x22'
  | '\\' => some '\\'
  | '/' => some '/'
  | 'b' => some '\x08'
  | 'f' => some '\x0c'
  | 'n' => some '\n'
  | 'r' => some '\r'
  | 't' => some '\t'
  | _ => none

def isHighSurrogate (code : Nat) : Bool := 0xd800 ≤ code && code ≤ 0xdbff

def isLowSurrogate (code : Nat) : Bool := 0xdc00 ≤ code && code ≤ 0xdfff

/-- The characters up to the closing quote, after those already got, latest first, and what
follows the quote. Surrogates must come in pairs. -/
def stringBody : List Char → List Char → Except Problem (List Char × List Char)
  | [], _ => .error .malformed
  | '\x22' :: rest, got => .ok (got.reverse, rest)
  | '\\' :: 'u' :: a :: b :: c :: d :: rest, got =>
      match hexWord? a b c d with
      | none => .error .malformed
      | some code =>
        if isLowSurrogate code then .error .malformed
        else if isHighSurrogate code then
          match rest with
          | '\\' :: 'u' :: e :: f :: g :: h :: after =>
            match hexWord? e f g h with
            | none => .error .malformed
            | some low =>
              if isLowSurrogate low then
                stringBody after
                  (Char.ofNat (0x10000 + (code - 0xd800) * 0x400 + (low - 0xdc00)) :: got)
              else .error .malformed
          | _ => .error .malformed
        else stringBody rest (Char.ofNat code :: got)
  | '\\' :: char :: rest, got =>
      match shortEscape? char with
      | none => .error .malformed
      | some meant => stringBody rest (meant :: got)
  | char :: rest, got =>
      if char.toNat < 32 ∨ char = '\\' then .error .malformed else stringBody rest (char :: got)

/-- What follows the closing quote of a string whose characters nobody asks for. Escapes are
checked, but surrogates need not come in pairs. -/
def skippedString : List Char → Except Problem (List Char)
  | [] => .error .malformed
  | '\x22' :: rest => .ok rest
  | '\\' :: 'u' :: a :: b :: c :: d :: rest =>
      if (hexWord? a b c d).isSome then skippedString rest else .error .malformed
  | '\\' :: char :: rest =>
      if (shortEscape? char).isSome then skippedString rest else .error .malformed
  | char :: rest =>
      if char.toNat < 32 ∨ char = '\\' then .error .malformed else skippedString rest

def quotedText : Reader String := do
  skip
  let (chars, rest) ← liftM (stringBody (← get) [])
  set rest
  pure (String.ofList chars)

/-! Numbers -/

def largestWhole : Nat := UInt64.size - 1

/-- Adds digits to a number as long as it stays within 64 bits, and gives those left over. -/
def addDigits : Nat → List Char → Nat × List Char
  | value, [] => (value, [])
  | value, digit :: rest =>
      let next := value * 10 + digitValue digit
      if largestWhole < next then (value, digit :: rest) else addDigits next rest

def digits : Reader (List Char) := do
  let text ← get
  set (text.dropWhile Char.isDigit)
  pure (text.takeWhile Char.isDigit)

/-- A whole number times a power of ten, by one multiplication or by divisions of at most 10^308,
each rounded. -/
def scaled : Nat → Binary64 → Int → Option Binary64
  | 0, value, _ => some value
  | steps + 1, value, exponent =>
    if exponent.natAbs ≤ 308 then
      match Binary64.nearest (Nat.pow 10 exponent.natAbs) 1 with
      | none => none
      | some power => if 0 ≤ exponent then value.mul power else value.div power
    else if value.isZero then some value
    else if 0 ≤ exponent then none
    else match (Binary64.nearest (Nat.pow 10 308) 1).bind value.div with
      | none => none
      | some smaller => scaled steps smaller (exponent + 308)

def floating (isNegative : Bool) (significand : Nat) (exponent : Int) : Reader Numeral :=
  match (Binary64.nearest significand 1).bind (scaled 4 · exponent) with
  | none => malformed
  | some magnitude => pure (.floating isNegative magnitude)

def exponentPart : Reader (Option Int) := do
  match ← get with
  | mark :: rest =>
      if mark = 'e' ∨ mark = 'E' then
        let (isNegative, unsigned) := Decimal.splitSign rest
        set unsigned
        let written ← digits
        if written = [] then malformed
        else
          let value : Int := digitsValue written
          pure (some (if isNegative then -value else value))
      else pure none
  | [] => pure none

def fractionPart : Reader (Option (List Char)) := do
  match ← get with
  | '.' :: rest =>
      set rest
      let written ← digits
      if written = [] then malformed else pure (some written)
  | _ => pure none

def largestExponent : Int := 2147483647

/-- A number without its sign. Digits beyond 64 bits only count for the exponent. -/
def unsignedNumeral (isNegative : Bool) : Reader Numeral := do
  let whole ← digits
  match whole with
  | [] => malformed
  | '0' :: _ :: _ => malformed
  | _ =>
    let (significand, excess) := addDigits 0 whole
    let fraction ← fractionPart
    let exponent ← exponentPart
    match fraction, exponent, excess with
    | none, none, [] =>
        if ¬ isNegative then pure (.natural significand)
        else if significand = 0 ∨ Nat.pow 2 63 < significand then floating true significand 0
        else pure (.negative significand)
    | _, _, _ =>
        let decimals := fraction.getD []
        let (longer, unread) := addDigits significand decimals
        let place : Int := (excess.length : Int) - (decimals.length - unread.length : Nat)
        match exponent with
        | none => floating isNegative longer place
        | some written =>
          if largestExponent < written.natAbs then
            if longer ≠ 0 ∧ 0 < written then malformed
            else floating isNegative 0 0
          else floating isNegative longer (place + written)

def numeral : Reader Numeral := do
  match ← get with
  | '-' :: rest =>
      set rest
      unsignedNumeral true
  | _ => unsignedNumeral false

/-! Values of another form than expected -/

def found : Reader Found := do
  let char ← peek
  if char = 'n' then word ['n', 'u', 'l', 'l']; pure .null
  else if char = 't' then word ['t', 'r', 'u', 'e']; pure (.boolean true)
  else if char = 'f' then word ['f', 'a', 'l', 's', 'e']; pure (.boolean false)
  else if char = '-' ∨ char.isDigit then return .numeral (← numeral)
  else if char = '\x22' then return .text (← quotedText)
  else if char = '[' then pure .sequence
  else if char = '\x7b' then pure .map
  else malformed

def wrongType {α : Type} (expected : String) : Reader α := do
  let value ← found
  throw (.invalidType value expected)

/-! Skipping -/

def skipNumeral : Reader Unit := do
  match ← get with
  | '-' :: rest => set rest
  | _ => pure ()
  match ← digits with
  | [] => malformed
  | '0' :: _ :: _ => malformed
  | _ =>
    let _ ← fractionPart
    let _ ← exponentPart

def skipString : Reader Unit := do
  skip
  let rest ← liftM (skippedString (← get))
  set rest

/-- What of a value is still to be skipped: the value itself, or the elements or members after
the one just read, where the first may be missing. -/
inductive Skipping
  | value
  | elements (first : Bool)
  | members (first : Bool)

/-- Skips a value of any form and depth. Every two steps take a character. -/
def skipWithin : Nat → Skipping → Reader Unit
  | 0, _ => malformed
  | steps + 1, .value => do
      let char ← peek
      if char = '[' then skip; skipWithin steps (.elements true)
      else if char = '\x7b' then skip; skipWithin steps (.members true)
      else if char = '\x22' then skipString
      else if char = '-' ∨ char.isDigit then skipNumeral
      else
        let _ ← found
  | steps + 1, .elements first => do
      let char ← peek
      if char = ']' then skip
      else
        if ¬ first then
          if char = ',' then skip else malformed
        skipWithin steps .value
        skipWithin steps (.elements false)
  | steps + 1, .members first => do
      let char ← peek
      if char = '\x7d' then skip
      else
        if ¬ first then
          if char = ',' then skip else malformed
        if (← peek) = '\x22' then skipString else malformed
        if (← peek) = ':' then skip else malformed
        skipWithin steps .value
        skipWithin steps (.members false)

def skipValue : Reader Unit := do
  let text ← get
  skipWithin (2 * text.length + 2) .value

/-! Values of expected form -/

def text : Reader String := do
  if (← peek) = '\x22' then quotedText else wrongType "a string"

def null : Reader Unit := do
  if (← peek) = 'n' then word ['n', 'u', 'l', 'l'] else wrongType "unit"

def word32 : Reader UInt32 := do
  let char ← peek
  if char = '-' ∨ char.isDigit then
    match ← numeral with
    | .natural value =>
        if value < UInt32.size then pure (UInt32.ofNat value)
        else throw (.invalidValue (.numeral (.natural value)) "u32")
    | .negative magnitude => throw (.invalidValue (.numeral (.negative magnitude)) "u32")
    | other => throw (.invalidType (.numeral other) "u32")
  else wrongType "u32"

def element? {α : Type} (first : Bool) (read : Reader α) : Reader (Option α) := do
  let char ← peek
  if char = ']' then pure none
  else if first then return some (← read)
  else if char = ',' then
    skip
    if (← peek) = ']' then malformed else return some (← read)
  else malformed

def endArray : Reader Unit := do
  if (← peek) = ']' then skip else malformed

/-- The elements of an array that was opened, the latest first among those already read. Every
element takes a character at least, so the text ahead is room enough, and a text that ends before
the array does is malformed. -/
def elementsWithin {α : Type} (read : Reader α) :
    List Char → Bool → List α → Reader (List α)
  | [], _, _ => malformed
  | _ :: room, first, got => do
      match ← element? first read with
      | none => pure got.reverse
      | some value => elementsWithin read room false (value :: got)

def array {α : Type} (read : Reader α) : Reader (List α) := do
  if (← peek) = '[' then
    skip
    let values ← elementsWithin read (← get) true []
    endArray
    pure values
  else wrongType "a sequence"

def key : Reader String := do
  if (← peek) = '\x22' then quotedText else malformed

def key? (first : Bool) : Reader (Option String) := do
  let char ← peek
  if char = '\x7d' then pure none
  else
    if ¬ first then
      if char = ',' then skip else malformed
    return some (← key)

def member {α : Type} (read : Reader α) : Reader α := do
  if (← peek) = ':' then
    skip
    read
  else malformed

def endObject : Reader Unit := do
  if (← peek) = '\x7d' then skip else malformed

def once {α : Type} (name : String) (before : Option α) (read : Reader α) :
    Reader (Option α) := do
  if before.isSome then throw (.duplicateField name)
  else return some (← member read)

def required {α : Type} (name : String) : Option α → Reader α
  | some value => pure value
  | none => throw (.missingField name)

/-- What is made of the members of an object that was opened, in as much room as the text ahead. -/
def membersWithin {σ : Type} (take : σ → String → Reader σ) :
    List Char → Bool → σ → Reader σ
  | [], _, _ => malformed
  | _ :: room, first, state => do
      match ← key? first with
      | none => pure state
      | some name => membersWithin take room false (← take state name)

/-- A record with two fields, as an object or as an array. The second field may have a value
that stands in for it when it is missing. -/
def record {α β γ : Type} (form : String) (first second : String) (readFirst : Reader α)
    (readSecond : Reader β) (default? : Option β) (make : α → β → γ) : Reader γ := do
  let char ← peek
  if char = '[' then
    skip
    let some a ← element? true readFirst
      | throw (.invalidLength 0 s!"struct {form} with 2 elements")
    let b ← match ← element? false readSecond, default? with
      | some b, _ => pure b
      | none, some b => pure b
      | none, none => throw (.invalidLength 1 s!"struct {form} with 2 elements")
    endArray
    pure (make a b)
  else if char = '\x7b' then
    skip
    let take (state : Option α × Option β) (name : String) : Reader (Option α × Option β) := do
      if name = first then return (← once first state.1 readFirst, state.2)
      else if name = second then return (state.1, ← once second state.2 readSecond)
      else
        member skipValue
        pure state
    let state ← membersWithin take (← get) true (none, none)
    let a ← required first state.1
    let b ← required second (state.2.or default?)
    endObject
    pure (make a b)
  else wrongType s!"struct {form}"

/-- One of several named choices: its name as a string, or as the key of an object with one
member that is null. -/
def choice {α : Type} (choose : String → Option α) : Reader α := do
  let named (name : String) : Reader α :=
    match choose name with
    | some value => pure value
    | none => throw (.unknownVariant name)
  let char ← peek
  if char = '\x22' then named (← quotedText)
  else if char = '\x7b' then
    skip
    let value ← named (← key)
    member null
    endObject
    pure value
  else malformed

def parse {α : Type} (read : Reader α) (source : String) : Except Problem α :=
  match read.run source.toList with
  | .error problem => .error problem
  | .ok (value, rest) => if rest.all isSpace then .ok value else .error .malformed

end ChunkStore.Json
