import ChunkStore.Job

/-!
Strategies for plain text: lines that are keys by themselves, with lines for comments and for
refusals, and chunks that people can read.
-/

namespace ChunkStore

set_option autoImplicit false

namespace Transform

/-- A line that starts with a number sign is dropped, one that starts with an exclamation mark is
rejected, and any other line is a key without a value. -/
def plainLines : Transform where
  name := "comment"
  apply record :=
    match record.head? with
    | some 35 => .ok none
    | some 33 => .error "rejected"
    | _ => .ok (some ⟨record, []⟩)

end Transform

namespace ChunkWriter

def refused : IoError := ⟨.invalidData, "writer refused"⟩

def refusedKey : Bytes := Bytes.ofText "boom"

def emitLine (record : Record) : Emission :=
  if record.key = refusedKey then .fail refused
  else
    ⟨[(.data, record.key), (.data, Bytes.ofText "="), (.data, record.value),
      (.data, Bytes.ofText "\n"), (.index, Bytes.ofText ".")], none⟩

def emitLines : List Record → Emission
  | [] => .complete
  | record :: rest => (emitLine record).append (emitLines rest)

def plainLines : ChunkWriter where
  name := "text"
  emit := emitLines

end ChunkWriter

end ChunkStore
