import ChunkStore.Bytes

/-!
The MD5 digest as a machine that takes one byte at a time. Bytes collect until a
block of 64 is full, which is then mixed into a chain of four words. Since a
piece of input is a fold of single bytes, feeding it in parts is feeding it whole.
-/

namespace ChunkStore.Md5

set_option autoImplicit false

structure Chain where
  a : UInt32
  b : UInt32
  c : UInt32
  d : UInt32
deriving DecidableEq, Repr

def Chain.initial : Chain := ⟨0x67452301, 0xefcdab89, 0x98badcfe, 0x10325476⟩

/-- The integer part of 2^32 times the sine of each step number, in radians and without sign. -/
def sines : List UInt32 :=
  [0xd76aa478, 0xe8c7b756, 0x242070db, 0xc1bdceee, 0xf57c0faf, 0x4787c62a, 0xa8304613, 0xfd469501,
   0x698098d8, 0x8b44f7af, 0xffff5bb1, 0x895cd7be, 0x6b901122, 0xfd987193, 0xa679438e, 0x49b40821,
   0xf61e2562, 0xc040b340, 0x265e5a51, 0xe9b6c7aa, 0xd62f105d, 0x02441453, 0xd8a1e681, 0xe7d3fbc8,
   0x21e1cde6, 0xc33707d6, 0xf4d50d87, 0x455a14ed, 0xa9e3e905, 0xfcefa3f8, 0x676f02d9, 0x8d2a4c8a,
   0xfffa3942, 0x8771f681, 0x6d9d6122, 0xfde5380c, 0xa4beea44, 0x4bdecfa9, 0xf6bb4b60, 0xbebfbc70,
   0x289b7ec6, 0xeaa127fa, 0xd4ef3085, 0x04881d05, 0xd9d4d039, 0xe6db99e5, 0x1fa27cf8, 0xc4ac5665,
   0xf4292244, 0x432aff97, 0xab9423a7, 0xfc93a039, 0x655b59c3, 0x8f0ccc92, 0xffeff47d, 0x85845dd1,
   0x6fa87e4f, 0xfe2ce6e0, 0xa3014314, 0x4e0811a1, 0xf7537e82, 0xbd3af235, 0x2ad7d2bb, 0xeb86d391]

/-- How far each of the sixteen steps of a round turns its word; a round repeats four amounts. -/
def turns : List (List UInt32) :=
  [[7, 12, 17, 22], [5, 9, 14, 20], [4, 11, 16, 23], [6, 10, 15, 21]]

def turnLeft (word amount : UInt32) : UInt32 := (word <<< amount) ||| (word >>> (32 - amount))

structure Step where
  sine : UInt32
  turn : UInt32
  source : Nat
  round : Nat

/-- The 64 steps in order. The block is read forwards, then with strides 5, 3 and 7. -/
def steps : List Step :=
  sines.zipIdx.map fun (sine, index) =>
    let round := index / 16
    { sine
      turn := (turns.getD round []).getD (index % 4) 0
      source := match round with
        | 0 => index % 16
        | 1 => (5 * index + 1) % 16
        | 2 => (3 * index + 5) % 16
        | _ => 7 * index % 16
      round }

def combine (round : Nat) (b c d : UInt32) : UInt32 :=
  match round with
  | 0 => (b &&& c) ||| (~~~b &&& d)
  | 1 => (d &&& b) ||| (~~~d &&& c)
  | 2 => b ^^^ c ^^^ d
  | _ => c ^^^ (b ||| ~~~d)

def Step.apply (block : Array UInt32) (chain : Chain) (step : Step) : Chain :=
  let sum := chain.a + combine step.round chain.b chain.c chain.d + step.sine +
    block.getD step.source 0
  ⟨chain.d, chain.b + turnLeft sum step.turn, chain.b, chain.c⟩

/-- Reads bytes as words, the least significant byte first. -/
def words : Bytes → List UInt32
  | a :: b :: c :: d :: rest =>
      (a.toUInt32 ||| (b.toUInt32 <<< 8) ||| (c.toUInt32 <<< 16) ||| (d.toUInt32 <<< 24)) ::
        words rest
  | _ => []

def wordBytes (word : UInt32) : Bytes :=
  [word.toUInt8, (word >>> 8).toUInt8, (word >>> 16).toUInt8, (word >>> 24).toUInt8]

def Chain.mix (chain : Chain) (block : Bytes) : Chain :=
  let source := (words block).toArray
  let mixed := steps.foldl (Step.apply source) chain
  ⟨chain.a + mixed.a, chain.b + mixed.b, chain.c + mixed.c, chain.d + mixed.d⟩

/-- A digest under way: the chain, the bytes of the unfinished block with the
latest first, and how many bytes there were in all. -/
structure Hasher where
  chain : Chain
  unfinished : Bytes
  waiting : Nat
  total : Nat
deriving DecidableEq

def Hasher.initial : Hasher := ⟨.initial, [], 0, 0⟩

def Hasher.push (hasher : Hasher) (byte : UInt8) : Hasher :=
  let unfinished := byte :: hasher.unfinished
  if hasher.waiting = 63 then
    ⟨hasher.chain.mix unfinished.reverse, [], 0, hasher.total + 1⟩
  else
    ⟨hasher.chain, unfinished, hasher.waiting + 1, hasher.total + 1⟩

def Hasher.update (hasher : Hasher) (bytes : Bytes) : Hasher := bytes.foldl Hasher.push hasher

theorem update_nil (hasher : Hasher) : hasher.update [] = hasher := rfl

theorem update_append (hasher : Hasher) (front back : Bytes) :
    hasher.update (front ++ back) = (hasher.update front).update back := by
  simp [Hasher.update, List.foldl_append]

/-- A one bit, zeros up to eight bytes short of a full block, and the number of bits. -/
def padding (total : Nat) : Bytes :=
  let bits := 8 * total
  0x80 :: List.replicate ((119 - total % 64) % 64) 0 ++
    wordBytes (UInt32.ofNat bits) ++ wordBytes (UInt32.ofNat (bits / UInt32.size))

def digestSize : Nat := 16

def Hasher.finish (hasher : Hasher) : Bytes :=
  let chain := (hasher.update (padding hasher.total)).chain
  wordBytes chain.a ++ wordBytes chain.b ++ wordBytes chain.c ++ wordBytes chain.d

theorem finish_length (hasher : Hasher) : hasher.finish.length = digestSize := rfl

def digest (bytes : Bytes) : Bytes := (Hasher.initial.update bytes).finish

theorem digest_length (bytes : Bytes) : (digest bytes).length = digestSize := finish_length _

end ChunkStore.Md5
