/-! XXH3, a digest of sixty-four bits that tells whether the content of a file has changed.  There
is one rule for each range of lengths; longer contents are taken in stripes of sixty-four bytes,
sixteen stripes to a block. -/

namespace LogLift.Storage.Digest

def prime32a : UInt64 := 0x9e3779b1
def prime32b : UInt64 := 0x85ebca77
def prime32c : UInt64 := 0xc2b2ae3d
def prime64a : UInt64 := 0x9e3779b185ebca87
def prime64b : UInt64 := 0xc2b2ae3d27d4eb4f
def prime64c : UInt64 := 0x165667b19e3779f9
def prime64d : UInt64 := 0x85ebca77c2b2ae63
def prime64e : UInt64 := 0x27d4eb2f165667c5

def secret : ByteArray := ⟨#[
  0xb8, 0xfe, 0x6c, 0x39, 0x23, 0xa4, 0x4b, 0xbe, 0x7c, 0x01, 0x81, 0x2c, 0xf7, 0x21, 0xad, 0x1c,
  0xde, 0xd4, 0x6d, 0xe9, 0x83, 0x90, 0x97, 0xdb, 0x72, 0x40, 0xa4, 0xa4, 0xb7, 0xb3, 0x67, 0x1f,
  0xcb, 0x79, 0xe6, 0x4e, 0xcc, 0xc0, 0xe5, 0x78, 0x82, 0x5a, 0xd0, 0x7d, 0xcc, 0xff, 0x72, 0x21,
  0xb8, 0x08, 0x46, 0x74, 0xf7, 0x43, 0x24, 0x8e, 0xe0, 0x35, 0x90, 0xe6, 0x81, 0x3a, 0x26, 0x4c,
  0x3c, 0x28, 0x52, 0xbb, 0x91, 0xc3, 0x00, 0xcb, 0x88, 0xd0, 0x65, 0x8b, 0x1b, 0x53, 0x2e, 0xa3,
  0x71, 0x64, 0x48, 0x97, 0xa2, 0x0d, 0xf9, 0x4e, 0x38, 0x19, 0xef, 0x46, 0xa9, 0xde, 0xac, 0xd8,
  0xa8, 0xfa, 0x76, 0x3f, 0xe3, 0x9c, 0x34, 0x3f, 0xf9, 0xdc, 0xbb, 0xc7, 0xc7, 0x0b, 0x4f, 0x1d,
  0x8a, 0x51, 0xe0, 0x4b, 0xcd, 0xb4, 0x59, 0x31, 0xc8, 0x9f, 0x7e, 0xc9, 0xd9, 0x78, 0x73, 0x64,
  0xea, 0xc5, 0xac, 0x83, 0x34, 0xd3, 0xeb, 0xc3, 0xc5, 0x81, 0xa0, 0xff, 0xfa, 0x13, 0x63, 0xeb,
  0x17, 0x0d, 0xdd, 0x51, 0xb7, 0xf0, 0xda, 0x49, 0xd3, 0x16, 0x55, 0x26, 0x29, 0xd4, 0x68, 0x9e,
  0x2b, 0x16, 0xbe, 0x58, 0x7d, 0x47, 0xa1, 0xfc, 0x8f, 0xf8, 0xb8, 0xd1, 0x7a, 0xd0, 0x31, 0xce,
  0x45, 0xcb, 0x3a, 0x8f, 0x95, 0x16, 0x04, 0x28, 0xaf, 0xd7, 0xfb, 0xca, 0xbb, 0x4b, 0x40, 0x7e]⟩

/-- Byte `i`, or zero past the end. -/
def byte (b : ByteArray) (i : Nat) : UInt64 := (b.data[i]?.getD 0).toUInt64

/-- The number in the `count` bytes from `i` on, the lowest byte first. -/
def number (count : Nat) (b : ByteArray) (i : Nat) : UInt64 :=
  (List.range count).foldr (fun k n => (n <<< 8) ||| byte b (i + k)) 0

def word32 (b : ByteArray) (i : Nat) : UInt64 := number 4 b i

def word64 (b : ByteArray) (i : Nat) : UInt64 := number 8 b i

def reverseBytes (w : UInt64) : UInt64 :=
  (List.range 8).foldl (fun n k => (n <<< 8) ||| ((w >>> (8 * k).toUInt64) &&& 0xff)) 0

def rotateLeft (w : UInt64) (n : UInt64) : UInt64 := (w <<< n) ||| (w >>> (64 - n))

/-- The two halves of the full product, combined by exclusive or. -/
def foldedProduct (a b : UInt64) : UInt64 :=
  let product := a.toNat * b.toNat
  product.toUInt64 ^^^ (product >>> 64).toUInt64

def shiftMix (w : UInt64) (n : UInt64) : UInt64 := w ^^^ (w >>> n)

/-- The last mixing of contents of more than eight bytes. -/
def finish (h : UInt64) : UInt64 := shiftMix (shiftMix h 37 * 0x165667919e3779f9) 32

/-- The last mixing of contents of at most three bytes. -/
def finishTiny (h : UInt64) : UInt64 :=
  shiftMix (shiftMix (shiftMix h 33 * prime64b) 29 * prime64c) 32

def ofTiny (b : ByteArray) : UInt64 :=
  let length := b.size.toUInt64
  let combined := (byte b 0 <<< 16) ||| (byte b (b.size / 2) <<< 24) ||| byte b (b.size - 1) |||
    (length <<< 8)
  finishTiny (combined ^^^ (word32 secret 0 ^^^ word32 secret 4))

/-- Contents of four to eight bytes. -/
def ofSmall (b : ByteArray) : UInt64 :=
  let length := b.size.toUInt64
  let input := word32 b (b.size - 4) + (word32 b 0 <<< 32)
  let h := input ^^^ (word64 secret 8 ^^^ word64 secret 16)
  let h := (h ^^^ rotateLeft h 49 ^^^ rotateLeft h 24) * 0x9fb21c651e98df25
  shiftMix ((h ^^^ ((h >>> 35) + length)) * 0x9fb21c651e98df25) 28

/-- Contents of nine to sixteen bytes. -/
def ofShort (b : ByteArray) : UInt64 :=
  let low := word64 b 0 ^^^ (word64 secret 24 ^^^ word64 secret 32)
  let high := word64 b (b.size - 8) ^^^ (word64 secret 40 ^^^ word64 secret 48)
  finish (b.size.toUInt64 + reverseBytes low + high + foldedProduct low high)

/-- Sixteen bytes of the content, mixed with sixteen of the secret. -/
def mix16 (b : ByteArray) (i key : Nat) : UInt64 :=
  foldedProduct (word64 b i ^^^ word64 secret key) (word64 b (i + 8) ^^^ word64 secret (key + 8))

def sum (words : List UInt64) : UInt64 := words.foldl (· + ·) 0

/-- Contents of seventeen to 128 bytes: pairs of sixteen bytes, one from each end. -/
def ofMiddle (b : ByteArray) : UInt64 :=
  let pairs := (b.size - 1) / 32 + 1
  finish (b.size.toUInt64 * prime64a + sum ((List.range pairs).map fun i =>
    mix16 b (16 * i) (32 * i) + mix16 b (b.size - 16 * (i + 1)) (32 * i + 16)))

/-- Contents of 129 to 240 bytes. -/
def ofLong (b : ByteArray) : UInt64 :=
  let rounds := b.size / 16
  let first := finish (b.size.toUInt64 * prime64a +
    sum ((List.range 8).map fun i => mix16 b (16 * i) (16 * i)))
  finish (first + sum ((List.range (rounds - 8)).map fun i => mix16 b (16 * (i + 8)) (16 * i + 3)) +
    mix16 b (b.size - 16) 119)

/-- The eight words that stripes are added to. -/
abbrev Lanes := List UInt64

def Lanes.initial : Lanes :=
  [prime32c, prime64a, prime64b, prime64c, prime64d, prime32b, prime64e, prime32a]

def Lanes.get (lanes : Lanes) (i : Nat) : UInt64 := lanes.getD i 0

/-- The lanes after the stripe at `i`.  Each word is added to its neighbour's lane. -/
def Lanes.addStripe (b : ByteArray) (i key : Nat) (lanes : Lanes) : Lanes :=
  (List.range 8).map fun k =>
    let keyed := word64 b (i + 8 * k) ^^^ word64 secret (key + 8 * k)
    let neighbour := if k % 2 = 0 then k + 1 else k - 1
    let product := (keyed &&& (0xffffffff : UInt64)) * (keyed >>> 32)
    Lanes.get lanes k + word64 b (i + 8 * neighbour) + product

/-- The lanes after `count` stripes from `i` on. -/
def Lanes.addStripes (b : ByteArray) (i count : Nat) (lanes : Lanes) : Lanes :=
  (List.range count).foldl (fun lanes k => lanes.addStripe b (i + 64 * k) (8 * k)) lanes

/-- The lanes at the end of a block. -/
def Lanes.scramble (lanes : Lanes) : Lanes :=
  (List.range 8).map fun k =>
    (shiftMix (lanes.get k) 47 ^^^ word64 secret (128 + 8 * k)) * prime32a

/-- Contents of more than 240 bytes. -/
def ofHuge (b : ByteArray) : UInt64 :=
  let blocks := (b.size - 1) / 1024
  let lanes := (List.range blocks).foldl
    (fun lanes k => (lanes.addStripes b (1024 * k) 16).scramble) Lanes.initial
  let lanes := lanes.addStripes b (1024 * blocks) ((b.size - 1 - 1024 * blocks) / 64)
  let lanes := lanes.addStripe b (b.size - 64) 121
  finish (b.size.toUInt64 * prime64a + sum ((List.range 4).map fun k =>
    foldedProduct (lanes.get (2 * k) ^^^ word64 secret (11 + 16 * k))
      (lanes.get (2 * k + 1) ^^^ word64 secret (19 + 16 * k))))

end Digest

def digest (b : ByteArray) : UInt64 :=
  if b.size = 0 then
    Digest.finishTiny (Digest.word64 Digest.secret 56 ^^^ Digest.word64 Digest.secret 64)
  else if b.size ≤ 3 then Digest.ofTiny b
  else if b.size ≤ 8 then Digest.ofSmall b
  else if b.size ≤ 16 then Digest.ofShort b
  else if b.size ≤ 128 then Digest.ofMiddle b
  else if b.size ≤ 240 then Digest.ofLong b
  else Digest.ofHuge b

end LogLift.Storage
