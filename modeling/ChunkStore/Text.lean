import ChunkStore.Text.Unshown

/-!
Texts as they are read and shown. The blank characters, those with the Unicode property
White_Space, are cut from the two ends of a text that is read. A text that is shown stands between
double quotes, where a character stands for itself unless it is a double quote or a backslash or
has no shape on a page; those are written with a backslash.
-/

namespace ChunkStore.Text

set_option autoImplicit false

def isBlank (char : Char) : Bool :=
  let code := char.toNat
  (9 ≤ code && code ≤ 13) || code == 0x20 || code == 0x85 || code == 0xa0 || code == 0x1680 ||
    (0x2000 ≤ code && code ≤ 0x200a) || code == 0x2028 || code == 0x2029 || code == 0x202f ||
    code == 0x205f || code == 0x3000

def trim (text : List Char) : List Char :=
  ((text.dropWhile isBlank).reverse.dropWhile isBlank).reverse

def hexDigits (number : Nat) : List Char := Nat.toDigits 16 number

def escapeChar (char : Char) : List Char :=
  if char = '\x00' then ['\\', '0']
  else if char = '\t' then ['\\', 't']
  else if char = '\r' then ['\\', 'r']
  else if char = '\n' then ['\\', 'n']
  else if char = '\\' then ['\\', '\\']
  else if char = '"' then ['\\', '"']
  else if isUnshown char then ['\\', 'u', '\x7b'] ++ hexDigits char.toNat ++ ['\x7d']
  else [char]

def quoted (text : String) : String :=
  String.ofList ('"' :: text.toList.flatMap escapeChar ++ ['"'])

end ChunkStore.Text
