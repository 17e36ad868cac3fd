import OrderingService.Digest.Blocks

/-!
# MD5

The digest of RFC 1321 with four words of state, 64 rounds a block, little-endian words and 16
bytes of output.
-/

namespace OrderingService

namespace Digest.Md5

/-- The four working words. -/
structure State where
  a : UInt32
  b : UInt32
  c : UInt32
  d : UInt32

/-- The state before the first block. -/
def State.initial : State :=
  ⟨0x67452301, 0xefcdab89, 0x98badcfe, 0x10325476⟩

/-- Constant `i` is the integer part of `2 ^ 32 * |sin (i + 1)|`. -/
def roundConstants : List UInt32 :=
  [0xd76aa478, 0xe8c7b756, 0x242070db, 0xc1bdceee, 0xf57c0faf, 0x4787c62a,
    0xa8304613, 0xfd469501, 0x698098d8, 0x8b44f7af, 0xffff5bb1, 0x895cd7be,
    0x6b901122, 0xfd987193, 0xa679438e, 0x49b40821, 0xf61e2562, 0xc040b340,
    0x265e5a51, 0xe9b6c7aa, 0xd62f105d, 0x02441453, 0xd8a1e681, 0xe7d3fbc8,
    0x21e1cde6, 0xc33707d6, 0xf4d50d87, 0x455a14ed, 0xa9e3e905, 0xfcefa3f8,
    0x676f02d9, 0x8d2a4c8a, 0xfffa3942, 0x8771f681, 0x6d9d6122, 0xfde5380c,
    0xa4beea44, 0x4bdecfa9, 0xf6bb4b60, 0xbebfbc70, 0x289b7ec6, 0xeaa127fa,
    0xd4ef3085, 0x04881d05, 0xd9d4d039, 0xe6db99e5, 0x1fa27cf8, 0xc4ac5665,
    0xf4292244, 0x432aff97, 0xab9423a7, 0xfc93a039, 0x655b59c3, 0x8f0ccc92,
    0xffeff47d, 0x85845dd1, 0x6fa87e4f, 0xfe2ce6e0, 0xa3014314, 0x4e0811a1,
    0xf7537e82, 0xbd3af235, 0x2ad7d2bb, 0xeb86d391]

/-- The rotation amounts of the four quarters of the rounds, each used in turn. -/
def rotations : List (List UInt32) :=
  [[7, 12, 17, 22], [5, 9, 14, 20], [4, 11, 16, 23], [6, 10, 15, 21]]

/-- The rotation amount of a round. -/
def rotation (i : Nat) : UInt32 := (rotations.getD (i / 16) []).getD (i % 4) 0

/-- One round on a block's words, given its number and constant. Each quarter of the rounds has a
boolean function and an order of words of its own. -/
def round (words : Array UInt32) (s : State) (ik : Nat × UInt32) : State :=
  let i := ik.1
  let (f, g) : UInt32 × Nat :=
    if i < 16 then ((s.b &&& s.c) ||| (~~~s.b &&& s.d), i)
    else if i < 32 then ((s.d &&& s.b) ||| (~~~s.d &&& s.c), (5 * i + 1) % 16)
    else if i < 48 then (s.b ^^^ s.c ^^^ s.d, (3 * i + 5) % 16)
    else (s.c ^^^ (s.b ||| ~~~s.d), 7 * i % 16)
  ⟨s.d, s.b + rotateLeft (s.a + f + ik.2 + words.getD g 0) (rotation i), s.b, s.c⟩

/-- Fold one block into the state. -/
def compress (s : State) (block : Bytes) : State :=
  let r := ((List.range 64).zip roundConstants).foldl (round (wordsLE block).toArray) s
  ⟨s.a + r.a, s.b + r.b, s.c + r.c, s.d + r.d⟩

/-- The words of a state as 16 bytes. -/
def State.toBytes (s : State) : Bytes :=
  [s.a, s.b, s.c, s.d].flatMap bytesLE

end Digest.Md5

/-- The MD5 digest of a message, 16 bytes. -/
def Digest.md5 (message : Bytes) : Bytes :=
  (foldBlocks Md5.compress Md5.State.initial (pad lengthLE message)).toBytes

/-- An MD5 digest has 16 bytes. -/
theorem Digest.length_md5 (message : Bytes) : (md5 message).length = 16 := by
  simp [md5, Md5.State.toBytes, bytesLE]

end OrderingService
