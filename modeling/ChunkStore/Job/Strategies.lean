import ChunkStore.Bytes.Md5
import ChunkStore.Job

/-!
The strategies that come with the library: lines of key, tab and value; partitions by MD5; and
chunks of framed records with an index of fixed width.
-/

namespace ChunkStore

set_option autoImplicit false

namespace Transform

def tab : UInt8 := 9

/-- The key is what stands before the first tab, the value everything after it. -/
def tabSeparated : Transform where
  name := "tab-separated"
  apply record :=
    match record.span (· != tab) with
    | (_, []) => .error "missing tab separator"
    | (key, _ :: value) => .ok (some ⟨key, value⟩)

end Transform

namespace Partitioner

def leadingWord (digest : Bytes) : UInt32 := UInt32.ofNat (Bytes.toNat (digest.take 4))

/-- Keys are spread by the first word of their MD5. -/
def md5 : Partitioner where
  name := "md5-hash"
  partition key count := leadingWord (Md5.digest key) % (if count = 0 then 1 else count)

def constant (partition : UInt32) : Partitioner where
  name := "const"
  partition _ _ := partition

end Partitioner

namespace ChunkWriter

def fieldTooLarge : IoError := ⟨.invalidInput, "record field too large"⟩

def dataTooLarge : IoError := ⟨.invalidData, "data file exceeds 4 GiB"⟩

def emitField (file : ChunkFile) (field : Bytes) : Emission :=
  if Record.maxField < field.length then .fail fieldTooLarge
  else ⟨[(file, Record.lengthBytes field.length), (file, field)], none⟩

def emitRecord (file : ChunkFile) (record : Record) : Emission :=
  (emitField file record.key).append (emitField file record.value)

/-- How wide an entry of the index is: a digest and an offset. -/
def indexEntrySize : Nat := 20

/-- Records from a data offset on. Each adds the MD5 of its key and its offset to the index. -/
def emitBinary : Nat → List Record → Emission
  | _, [] => .complete
  | offset, record :: rest =>
      if UInt32.size ≤ offset then .fail dataTooLarge
      else
        let entry : Emission :=
          ⟨[(.index, Md5.digest record.key), (.index, Bytes.ofWord (UInt32.ofNat offset))], none⟩
        (entry.append (emitRecord .data record)).append
          (emitBinary (offset + record.size) rest)

def binary : ChunkWriter where
  name := "binary"
  emit := emitBinary 0

end ChunkWriter

end ChunkStore
