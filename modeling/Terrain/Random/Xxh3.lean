/-!
# XXH3 digests

The 64-bit XXH3 digest with a seed, for the lengths in use: keys of eight and of twelve bytes, given
as words, and byte strings of sixteen bytes and more.

* `digest8` — two 32-bit words.
* `digest12` — three 32-bit words.
* `digest` — a byte string of at least sixteen bytes.
-/

namespace Terrain.Xxh3

/-! ## Constants -/

/-- The default secret, as little-endian words from its start. -/
def secretWords : Array UInt64 := #[
  0xbe4ba423396cfeb8, 0x1cad21f72c81017c, 0xdb979083e96dd4de, 0x1f67b3b7a4a44072,
  0x78e5c0cc4ee679cb, 0x2172ffcc7dd05a82, 0x8e2443f7744608b8, 0x4c263a81e69035e0,
  0xcb00c391bb52283c, 0xa32e531b8b65d088, 0x4ef90da297486471, 0xd8acdea946ef1938,
  0x3f349ce33f76faa8, 0x1d4f0bc7c7bbdcf9, 0x3159b4cd4be0518a, 0x647378d9c97e9fc8,
  0xc3ebd33483acc5ea, 0xeb6313faffa081c5, 0x49daf0b751dd0d17, 0x9e68d429265516d3,
  0xfca1477d58be162b, 0xce31d07ad1b8f88f, 0x280416958f3acb45, 0x7e404bbbcafbd7af]

/-- Appends the eight bytes of a word, lowest first. -/
def pushWord (bytes : ByteArray) (word : UInt64) : ByteArray :=
  (List.range 8).foldl (fun bytes i => bytes.push (word >>> (8 * i).toUInt64).toUInt8) bytes

/-- The default secret as bytes. -/
def secret : ByteArray := secretWords.foldl pushWord ByteArray.empty

def prime32a : UInt64 := 0x9e3779b1
def prime32b : UInt64 := 0x85ebca77
def prime32c : UInt64 := 0xc2b2ae3d
def prime64a : UInt64 := 0x9e3779b185ebca87
def prime64b : UInt64 := 0xc2b2ae3d27d4eb4f
def prime64c : UInt64 := 0x165667b19e3779f9
def prime64d : UInt64 := 0x85ebca77c2b2ae63
def prime64e : UInt64 := 0x27d4eb2f165667c5

/-! ## Word operations -/

/-- The word of eight bytes from a position on, lowest byte first; bytes past the end count as 0. -/
def wordAt (bytes : ByteArray) (position : Nat) : UInt64 :=
  if inside : position + 7 < bytes.size then
    let byte (i : Fin 8) : UInt64 :=
      (bytes.get (position + i) (by omega)).toUInt64 <<< (8 * i.val).toUInt64
    byte 0 ||| byte 1 ||| byte 2 ||| byte 3 ||| byte 4 ||| byte 5 ||| byte 6 ||| byte 7
  else 0

def rotateLeft (word : UInt64) (count : UInt64) : UInt64 :=
  (word <<< count) ||| (word >>> (64 - count))

/-- The bytes of a word in opposite order. -/
def swapBytes (word : UInt64) : UInt64 :=
  let pairs := ((word &&& 0x00ff00ff00ff00ff) <<< 8) ||| ((word >>> 8) &&& 0x00ff00ff00ff00ff)
  let quads := ((pairs &&& 0x0000ffff0000ffff) <<< 16) ||| ((pairs >>> 16) &&& 0x0000ffff0000ffff)
  (quads <<< 32) ||| (quads >>> 32)

/-- Low and high half of the 128-bit product, combined by exclusive or. The product is assembled
from the products of the 32-bit halves. -/
def foldProduct (a b : UInt64) : UInt64 :=
  let lowMask : UInt64 := 0xffffffff
  let aLow := a &&& lowMask
  let aHigh := a >>> 32
  let bLow := b &&& lowMask
  let bHigh := b >>> 32
  let low := aLow * bLow
  let crossA := aHigh * bLow
  let crossB := aLow * bHigh
  let carry := (low >>> 32) + (crossA &&& lowMask) + (crossB &&& lowMask)
  let high := aHigh * bHigh + (crossA >>> 32) + (crossB >>> 32) + (carry >>> 32)
  (a * b) ^^^ high

def avalanche (word : UInt64) : UInt64 :=
  let word := (word ^^^ (word >>> 37)) * 0x165667919e3779f9
  word ^^^ (word >>> 32)

/-! ## Short keys -/

/-- Exclusive or of two neighbouring secret words. -/
def secretPair (index : Nat) : UInt64 :=
  secretWords.getD index 0 ^^^ secretWords.getD (index + 1) 0

def shortFlip : UInt64 := secretPair 1
def lowFlip : UInt64 := secretPair 3
def highFlip : UInt64 := secretPair 5

/-- Digest of the eight bytes of two 32-bit words. -/
def digest8 (first last : UInt32) (seed : UInt64) : UInt64 :=
  let seed := seed ^^^ (swapBytes (seed &&& 0xffffffff) &&& 0xffffffff00000000)
  let value := last.toUInt64 + (first.toUInt64 <<< 32)
  let h := value ^^^ (shortFlip - seed)
  let h := h ^^^ rotateLeft h 49 ^^^ rotateLeft h 24
  let h := h * 0x9fb21c651e98df25
  let h := h ^^^ ((h >>> 35) + 8)
  let h := h * 0x9fb21c651e98df25
  h ^^^ (h >>> 28)

/-- Digest of nine to sixteen bytes, given by their first and last eight. -/
def digestMedium (length first last seed : UInt64) : UInt64 :=
  let low := first ^^^ (lowFlip + seed)
  let high := last ^^^ (highFlip - seed)
  avalanche (length + swapBytes low + high + foldProduct low high)

/-- Digest of the twelve bytes of three 32-bit words. -/
def digest12 (a b c : UInt32) (seed : UInt64) : UInt64 :=
  let first := a.toUInt64 ||| (b.toUInt64 <<< 32)
  let last := b.toUInt64 ||| (c.toUInt64 <<< 32)
  digestMedium 12 first last seed

/-! ## Byte strings -/

/-- Mixes sixteen bytes with sixteen bytes of the secret. -/
def mix16 (bytes : ByteArray) (position : Nat) (key : Nat) (seed : UInt64) : UInt64 :=
  foldProduct (wordAt bytes position ^^^ (wordAt secret key + seed))
    (wordAt bytes (position + 8) ^^^ (wordAt secret (key + 8) - seed))

/-- Seventeen to 128 bytes: pairs of blocks from both ends. -/
def digestPairs (bytes : ByteArray) (seed : UInt64) : UInt64 :=
  let n := bytes.size
  avalanche <| (List.range ((n - 1) / 32 + 1)).foldl (fun total i =>
    total + mix16 bytes (16 * i) (32 * i) seed
      + mix16 bytes (n - 16 * (i + 1)) (32 * i + 16) seed) (n.toUInt64 * prime64a)

/-- From 129 to 240 bytes: blocks from the start and one at the end. -/
def digestBlocks (bytes : ByteArray) (seed : UInt64) : UInt64 :=
  let n := bytes.size
  let first := (List.range 8).foldl (fun total i => total + mix16 bytes (16 * i) (16 * i) seed)
    (n.toUInt64 * prime64a)
  let rest := (List.range (n / 16 - 8)).foldl (fun total i =>
    total + mix16 bytes (16 * (i + 8)) (16 * i + 3) seed) (avalanche first)
  avalanche (rest + mix16 bytes (n - 16) 119 seed)

/-- The secret with the seed worked into it. -/
def seededSecret (seed : UInt64) : ByteArray :=
  (secretWords.mapIdx fun i word => if i % 2 = 0 then word + seed else word - seed).foldl
    pushWord ByteArray.empty

/-- Adds a stripe of 64 bytes to the eight accumulators. -/
def addStripe (bytes key : ByteArray) (totals : Array UInt64) (position keyPosition : Nat) :
    Array UInt64 :=
  (List.range 8).foldl (fun (totals : Array UInt64) lane =>
    let value := wordAt bytes (position + 8 * lane)
    let mixed := value ^^^ wordAt key (keyPosition + 8 * lane)
    let product : UInt64 := (mixed &&& (0xffffffff : UInt64)) * (mixed >>> 32)
    (totals.modify (lane ^^^ 1) (· + value)).modify lane (· + product)) totals

/-- Scrambles the accumulators after a full block. -/
def scramble (key : ByteArray) (totals : Array UInt64) : Array UInt64 :=
  totals.mapIdx fun lane (total : UInt64) =>
    ((total ^^^ (total >>> 47)) ^^^ wordAt key (128 + 8 * lane)) * prime32a

/-- More than 240 bytes: blocks of sixteen stripes, the rest, and the last 64 bytes. -/
def digestStripes (bytes : ByteArray) (seed : UInt64) : UInt64 :=
  let n := bytes.size
  let key := seededSecret seed
  let start : Array UInt64 := #[prime32c, prime64a, prime64b, prime64c, prime64d, prime32b,
    prime64e, prime32a]
  let blocks := (n - 1) / 1024
  let stripes (totals : Array UInt64) (position count : Nat) : Array UInt64 :=
    (List.range count).foldl (fun totals t => addStripe bytes key totals (position + 64 * t) (8 * t))
      totals
  let totals := (List.range blocks).foldl (fun totals block =>
    scramble key (stripes totals (1024 * block) 16)) start
  let totals := stripes totals (1024 * blocks) ((n - 1 - 1024 * blocks) / 64)
  let totals := addStripe bytes key totals (n - 64) 121
  avalanche <| (List.range 4).foldl (fun total i =>
    total + foldProduct (totals.getD (2 * i) 0 ^^^ wordAt key (11 + 16 * i))
      (totals.getD (2 * i + 1) 0 ^^^ wordAt key (19 + 16 * i))) (n.toUInt64 * prime64a)

/-- Digest of at least nine bytes. -/
def digest (bytes : ByteArray) (seed : UInt64) : UInt64 :=
  let n := bytes.size
  if n ≤ 16 then digestMedium n.toUInt64 (wordAt bytes 0) (wordAt bytes (n - 8)) seed
  else if n ≤ 128 then digestPairs bytes seed
  else if n ≤ 240 then digestBlocks bytes seed
  else digestStripes bytes seed

end Terrain.Xxh3
