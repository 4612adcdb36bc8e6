/-!
Writing JSON text: strings with the escapes that JSON asks for, and objects on one line.
-/

namespace ChunkStore.Json

set_option autoImplicit false

def hexNibble (value : Nat) : Char := (Nat.toDigits 16 value).headD '0'

def escape (char : Char) : List Char :=
  if char = '\x22' then ['\\', '\x22']
  else if char = '\\' then ['\\', '\\']
  else if char = '\x08' then ['\\', 'b']
  else if char = '\x0c' then ['\\', 'f']
  else if char = '\n' then ['\\', 'n']
  else if char = '\r' then ['\\', 'r']
  else if char = '\t' then ['\\', 't']
  else if char.toNat < 32 then
    ['\\', 'u', '0', '0', hexNibble (char.toNat / 16), hexNibble (char.toNat % 16)]
  else [char]

def quote (text : String) : String :=
  String.ofList ('\x22' :: text.toList.flatMap escape ++ ['\x22'])

def objectText (members : List (String × String)) : String :=
  "\x7b" ++ ",".intercalate (members.map fun (name, value) => quote name ++ ":" ++ value) ++ "\x7d"

def objectLines (members : List (String × String)) : String :=
  "\x7b\n" ++
    ",\n".intercalate (members.map fun (name, value) => "  " ++ quote name ++ ": " ++ value) ++
    "\n\x7d"

def arrayText (values : List String) : String := "[" ++ ",".intercalate values ++ "]"

end ChunkStore.Json
