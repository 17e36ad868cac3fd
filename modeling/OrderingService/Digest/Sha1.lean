import OrderingService.Digest.Blocks

/-!
# SHA-1

The digest of FIPS 180-4 with five words of state, 80 rounds a block and 20 bytes of output.
-/

namespace OrderingService

namespace Digest.Sha1

/-- The five working words. -/
structure State where
  a : UInt32
  b : UInt32
  c : UInt32
  d : UInt32
  e : UInt32

/-- The state before the first block. -/
def State.initial : State :=
  ⟨0x67452301, 0xefcdab89, 0x98badcfe, 0x10325476, 0xc3d2e1f0⟩

/-- The 80 words of a block's message schedule: sixteen of its own, the others from earlier
ones. -/
def schedule (block : Bytes) : Array UInt32 :=
  (List.range 64).foldl (fun w i =>
    w.push (rotateLeft (w.getD (i + 13) 0 ^^^ w.getD (i + 8) 0 ^^^ w.getD (i + 2) 0
      ^^^ w.getD i 0) 1)) (wordsBE block).toArray

/-- One round, given its number and its word of the schedule. Each quarter of the rounds has a
boolean function and a constant of its own. -/
def round (s : State) (iw : Nat × UInt32) : State :=
  let (f, k) : UInt32 × UInt32 :=
    if iw.1 < 20 then ((s.b &&& s.c) ||| (~~~s.b &&& s.d), 0x5a827999)
    else if iw.1 < 40 then (s.b ^^^ s.c ^^^ s.d, 0x6ed9eba1)
    else if iw.1 < 60 then ((s.b &&& s.c) ||| (s.b &&& s.d) ||| (s.c &&& s.d), 0x8f1bbcdc)
    else (s.b ^^^ s.c ^^^ s.d, 0xca62c1d6)
  ⟨rotateLeft s.a 5 + f + s.e + k + iw.2, s.a, rotateLeft s.b 30, s.c, s.d⟩

/-- Fold one block into the state. -/
def compress (s : State) (block : Bytes) : State :=
  let r := ((List.range 80).zip (schedule block).toList).foldl round s
  ⟨s.a + r.a, s.b + r.b, s.c + r.c, s.d + r.d, s.e + r.e⟩

/-- The words of a state as 20 bytes. -/
def State.toBytes (s : State) : Bytes :=
  [s.a, s.b, s.c, s.d, s.e].flatMap bytesBE

end Digest.Sha1

/-- The SHA-1 digest of a message, 20 bytes. -/
def Digest.sha1 (message : Bytes) : Bytes :=
  (foldBlocks Sha1.compress Sha1.State.initial (pad lengthBE message)).toBytes

/-- A SHA-1 digest has 20 bytes. -/
theorem Digest.length_sha1 (message : Bytes) : (sha1 message).length = 20 := by
  simp [sha1, Sha1.State.toBytes, bytesBE]

end OrderingService
