import RingDeque.Hash.Feed

/-!
# A hash function on words

The state is one word. Each word that is read is added to it and the sum multiplied by a fixed odd
number. A block of bytes is first digested to a word: two words of state are mixed with the block by
multiplying to double width and folding the halves. The end of a hash rotates the state, because the
high bits of a product are the better mixed ones.
-/

namespace RingDeque.Hash

/-- The number that a state is multiplied by. -/
def multiplier : UInt64 := 0xf1357aea2e62a9c5

/-- The first words of state of a digest. -/
def seed : UInt64 × UInt64 := (0x243f6a8885a308d3, 0x13198a2e03707344)

/-- The word that keeps a block of zeros from cancelling the state. -/
def guardWord : UInt64 := 0xa4093822299f31d0

/-- The two halves of a product, folded. -/
def mix (x y : UInt64) : UInt64 :=
  let product := x.toNat * y.toNat
  UInt64.ofNat product ^^^ UInt64.ofNat (product >>> 64)

/-- The number that bytes spell, the lowest first. -/
def littleEndian (block : List UInt8) : UInt64 :=
  block.foldr (fun byte rest => rest * 256 + byte.toUInt64) 0

/-- The last `n` bytes. -/
def lastBytes (n : Nat) (block : List UInt8) : List UInt8 :=
  block.drop (block.length - n)

/-- Mix `count` pieces of sixteen bytes into the state. -/
def absorbPieces : Nat → List UInt8 → UInt64 × UInt64 → UInt64 × UInt64
  | 0, _, state => state
  | count + 1, block, (s, t) =>
    let low := littleEndian (block.take 8)
    let high := littleEndian ((block.drop 8).take 8)
    absorbPieces count (block.drop 16) (t, mix (s ^^^ low) (guardWord ^^^ high))

/-- The state after all bytes of a block. The last sixteen bytes are always read as two words; a
short block is read as two words that overlap. -/
def absorbBlock (block : List UInt8) : UInt64 × UInt64 :=
  let n := block.length
  let (s, t) := seed
  if n = 0 then
    (s, t)
  else if n < 4 then
    let first := block.getD 0 0
    let middle := block.getD (n / 2) 0
    let last := block.getD (n - 1) 0
    (s ^^^ first.toUInt64, t ^^^ ((last.toUInt64 <<< 8) ||| middle.toUInt64))
  else if n < 8 then
    (s ^^^ littleEndian (block.take 4), t ^^^ littleEndian (lastBytes 4 block))
  else if n ≤ 16 then
    (s ^^^ littleEndian (block.take 8), t ^^^ littleEndian (lastBytes 8 block))
  else
    let (s, t) := absorbPieces ((n - 1) / 16) block (s, t)
    (s ^^^ littleEndian ((lastBytes 16 block).take 8), t ^^^ littleEndian (lastBytes 8 block))

/-- The word that stands for a block of bytes. -/
def digest (block : List UInt8) : UInt64 :=
  let (s, t) := absorbBlock block
  mix s t ^^^ UInt64.ofNat block.length

/-- The state after one write. -/
def absorb (state : UInt64) : Write → UInt64
  | .word value => (state + value) * multiplier
  | .length count => (state + UInt64.ofNat count) * multiplier
  | .bytes block => (state + digest block) * multiplier

/-- The hash that a state stands for. -/
def finish (state : UInt64) : UInt64 :=
  (state <<< 26) ||| (state >>> 38)

end RingDeque.Hash

/-- The hash function with one word of state. -/
def RingDeque.Hasher.word : RingDeque.Hasher where
  State := UInt64
  initial := 0
  read := RingDeque.Hash.absorb
  finish := RingDeque.Hash.finish
