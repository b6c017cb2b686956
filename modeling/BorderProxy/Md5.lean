import BorderProxy.Text.Number
import BorderProxy.Text.Utf8

/-! The MD5 digest: the message is padded to blocks of sixteen little-endian words, each block is mixed
into a state of four words in 64 rounds, and the digest is the state's bytes. -/

namespace BorderProxy.Md5

structure State where
  a : UInt32
  b : UInt32
  c : UInt32
  d : UInt32
  deriving DecidableEq, Repr

def State.initial : State := ⟨0x67452301, 0xefcdab89, 0x98badcfe, 0x10325476⟩

/-- The rotations of the four rounds, sixteen steps each. -/
def rotations : List UInt32 :=
  let round (r : List UInt32) := r ++ r ++ r ++ r
  round [7, 12, 17, 22] ++ round [5, 9, 14, 20] ++ round [4, 11, 16, 23] ++ round [6, 10, 15, 21]

/-- The additive constants of the 64 steps, the integer parts of 2^32 · |sin (i + 1)|. -/
def constants : List UInt32 :=
  [0xd76aa478, 0xe8c7b756, 0x242070db, 0xc1bdceee, 0xf57c0faf, 0x4787c62a, 0xa8304613, 0xfd469501,
   0x698098d8, 0x8b44f7af, 0xffff5bb1, 0x895cd7be, 0x6b901122, 0xfd987193, 0xa679438e, 0x49b40821,
   0xf61e2562, 0xc040b340, 0x265e5a51, 0xe9b6c7aa, 0xd62f105d, 0x02441453, 0xd8a1e681, 0xe7d3fbc8,
   0x21e1cde6, 0xc33707d6, 0xf4d50d87, 0x455a14ed, 0xa9e3e905, 0xfcefa3f8, 0x676f02d9, 0x8d2a4c8a,
   0xfffa3942, 0x8771f681, 0x6d9d6122, 0xfde5380c, 0xa4beea44, 0x4bdecfa9, 0xf6bb4b60, 0xbebfbc70,
   0x289b7ec6, 0xeaa127fa, 0xd4ef3085, 0x04881d05, 0xd9d4d039, 0xe6db99e5, 0x1fa27cf8, 0xc4ac5665,
   0xf4292244, 0x432aff97, 0xab9423a7, 0xfc93a039, 0x655b59c3, 0x8f0ccc92, 0xffeff47d, 0x85845dd1,
   0x6fa87e4f, 0xfe2ce6e0, 0xa3014314, 0x4e0811a1, 0xf7537e82, 0xbd3af235, 0x2ad7d2bb, 0xeb86d391]

def rotateLeft (word amount : UInt32) : UInt32 := (word <<< amount) ||| (word >>> (32 - amount))

/-- One step: the mixing function and the word it takes depend on the round. -/
def State.step (words : List UInt32) (s : State) (index : Nat) (rotation constant : UInt32) : State :=
  let mix := if index < 16 then ((s.b &&& s.c) ||| (~~~s.b &&& s.d), index)
    else if index < 32 then ((s.d &&& s.b) ||| (~~~s.d &&& s.c), (5 * index + 1) % 16)
    else if index < 48 then (s.b ^^^ s.c ^^^ s.d, (3 * index + 5) % 16)
    else (s.c ^^^ (s.b ||| ~~~s.d), 7 * index % 16)
  let sum := mix.1 + s.a + constant + words.getD mix.2 0
  ⟨s.d, s.b + rotateLeft sum rotation, s.b, s.c⟩

/-- The steps of a block from the given step on. -/
def State.rounds (words : List UInt32) : Nat → List (UInt32 × UInt32) → State → State
  | _, [], s => s
  | index, (rotation, constant) :: steps, s =>
    State.rounds words (index + 1) steps (s.step words index rotation constant)

def State.absorb (s : State) (words : List UInt32) : State :=
  let t := State.rounds words 0 (rotations.zip constants) s
  ⟨s.a + t.a, s.b + t.b, s.c + t.c, s.d + t.d⟩

/-- The bytes of a word, the lowest first. -/
def wordBytes (word : UInt32) : List UInt8 :=
  [word.toUInt8, (word >>> 8).toUInt8, (word >>> 16).toUInt8, (word >>> 24).toUInt8]

/-- The words of a byte string, four bytes each with the lowest first. -/
def words : List UInt8 → List UInt32
  | a :: b :: c :: d :: rest =>
    (a.toUInt32 ||| (b.toUInt32 <<< 8) ||| (c.toUInt32 <<< 16) ||| (d.toUInt32 <<< 24)) :: words rest
  | _ => []

/-- The message with the closing bit, zeros up to 56 bytes modulo 64, and the length in bits. -/
def padded (message : List UInt8) : List UInt8 :=
  let bits := message.length * 8
  message ++ [0x80] ++ List.replicate ((119 - message.length % 64) % 64) 0 ++
    wordBytes (UInt32.ofNat bits) ++ wordBytes (UInt32.ofNat (bits / 4294967296))

/-- Mixes the given number of blocks of sixteen words into the state. -/
def State.absorbAll : Nat → List UInt32 → State → State
  | 0, _, s => s
  | blocks + 1, ws, s => State.absorbAll blocks (ws.drop 16) (s.absorb (ws.take 16))

def digest (message : List UInt8) : List UInt8 :=
  let ws := words (padded message)
  let s := State.absorbAll (ws.length / 16) ws .initial
  wordBytes s.a ++ wordBytes s.b ++ wordBytes s.c ++ wordBytes s.d

/-- The digest of a text's bytes in 32 hexadecimal digits. -/
def hexDigest (t : Text) : Text := Text.hexBytes (digest (Utf8.encode t))

end BorderProxy.Md5
