import OrderingService.Bytes

/-!
# Iterated block digests

SHA-256, SHA-1 and MD5 share one construction: the message is padded to a multiple of 64 bytes,
the padding ending in the message's bit length, and a compression function folds the blocks into
a state. The three digests differ in the order of bytes in a word, in the state and in the
compression function.

## Main definitions

* `Digest.pad` — one bit, zeros, the bit length
* `Digest.foldBlocks` — fold over the whole blocks of 64 bytes
* `Digest.wordsBE`, `Digest.wordsLE` — the 32-bit words of a block
-/

namespace OrderingService

namespace Digest

/-- The message, a one bit, zeros, and eight bytes for its length in bits, so that the whole is a
multiple of 64. -/
def pad (lengthBytes : UInt64 → Bytes) (message : Bytes) : Bytes :=
  message ++ 0x80 :: List.replicate ((119 - message.length % 64) % 64) 0
    ++ lengthBytes (8 * message.length).toUInt64

/-- Fold over the whole blocks of a message; a last part shorter than a block is left out. -/
def foldBlocks {α : Type} (compress : α → Bytes → α) (state : α) (message : Bytes) : α :=
  if (message.take 64).length < 64 then state
  else foldBlocks compress (compress state (message.take 64)) (message.drop 64)
termination_by message.length
decreasing_by simp_all; omega

/-- Big-endian 32-bit words; a last part shorter than a word is left out. -/
def wordsBE : Bytes → List UInt32
  | a :: b :: c :: d :: rest =>
    (a.toUInt32 <<< 24 ||| b.toUInt32 <<< 16 ||| c.toUInt32 <<< 8 ||| d.toUInt32) :: wordsBE rest
  | _ => []

/-- Little-endian 32-bit words; a last part shorter than a word is left out. -/
def wordsLE : Bytes → List UInt32
  | a :: b :: c :: d :: rest =>
    (d.toUInt32 <<< 24 ||| c.toUInt32 <<< 16 ||| b.toUInt32 <<< 8 ||| a.toUInt32) :: wordsLE rest
  | _ => []

/-- The four bytes of a word, highest first. -/
def bytesBE (w : UInt32) : Bytes :=
  [(w >>> 24).toUInt8, (w >>> 16).toUInt8, (w >>> 8).toUInt8, w.toUInt8]

/-- The four bytes of a word, lowest first. -/
def bytesLE (w : UInt32) : Bytes :=
  [w.toUInt8, (w >>> 8).toUInt8, (w >>> 16).toUInt8, (w >>> 24).toUInt8]

/-- The eight bytes of a length, highest first. -/
def lengthBE (n : UInt64) : Bytes :=
  bytesBE (n >>> 32).toUInt32 ++ bytesBE n.toUInt32

/-- The eight bytes of a length, lowest first. -/
def lengthLE (n : UInt64) : Bytes :=
  bytesLE n.toUInt32 ++ bytesLE (n >>> 32).toUInt32

/-- Rotate a word to the left by `n` bits, for `n` between 1 and 31. -/
def rotateLeft (w n : UInt32) : UInt32 := (w <<< n) ||| (w >>> (32 - n))

/-- Rotate a word to the right by `n` bits, for `n` between 1 and 31. -/
def rotateRight (w n : UInt32) : UInt32 := (w >>> n) ||| (w <<< (32 - n))

end Digest

end OrderingService
