/-!
The keyed digest that spreads tokens over buckets: BLAKE2b with a digest of eight bytes and a fixed
personalisation. The digest is read as a number whose first byte is the lowest.
-/

namespace Groundwork.Embedding.Digest

def initial : Array UInt64 :=
  #[0x6a09e667f3bcc908, 0xbb67ae8584caa73b, 0x3c6ef372fe94f82b, 0xa54ff53a5f1d36f1,
    0x510e527fade682d1, 0x9b05688c2b3e6c1f, 0x1f83d9abfb41bd6b, 0x5be0cd19137e2179]

def schedule : List (Array Nat) :=
  [#[0, 1, 2, 3, 4, 5, 6, 7, 8, 9, 10, 11, 12, 13, 14, 15],
    #[14, 10, 4, 8, 9, 15, 13, 6, 1, 12, 0, 2, 11, 7, 5, 3],
    #[11, 8, 12, 0, 5, 2, 15, 13, 10, 14, 3, 6, 7, 1, 9, 4],
    #[7, 9, 3, 1, 13, 12, 11, 14, 2, 6, 5, 10, 4, 0, 15, 8],
    #[9, 0, 5, 7, 2, 4, 10, 15, 14, 1, 11, 12, 6, 8, 3, 13],
    #[2, 12, 6, 10, 0, 11, 8, 3, 4, 13, 7, 5, 15, 14, 1, 9],
    #[12, 5, 1, 15, 14, 13, 4, 10, 0, 7, 6, 3, 9, 2, 8, 11],
    #[13, 11, 7, 14, 12, 1, 3, 9, 5, 0, 15, 4, 8, 6, 2, 10],
    #[6, 15, 14, 9, 11, 3, 0, 8, 12, 2, 13, 7, 1, 4, 10, 5],
    #[10, 2, 8, 4, 7, 6, 1, 5, 15, 11, 9, 14, 3, 12, 13, 0]]

/-- The twelve rounds; the last two are the first two again. -/
def rounds : List (Array Nat) := schedule ++ schedule.take 2

def rotateRight (x n : UInt64) : UInt64 := (x >>> n) ||| (x <<< (64 - n))

def mix (v : Array UInt64) (a b c d : Nat) (x y : UInt64) : Array UInt64 :=
  let va := v.getD a 0 + v.getD b 0 + x
  let vd := rotateRight (v.getD d 0 ^^^ va) 32
  let vc := v.getD c 0 + vd
  let vb := rotateRight (v.getD b 0 ^^^ vc) 24
  let va := va + vb + y
  let vd := rotateRight (vd ^^^ va) 16
  let vc := vc + vd
  let vb := rotateRight (vb ^^^ vc) 63
  (((v.setIfInBounds a va).setIfInBounds b vb).setIfInBounds c vc).setIfInBounds d vd

def lanes : List (Nat × Nat × Nat × Nat) :=
  [(0, 4, 8, 12), (1, 5, 9, 13), (2, 6, 10, 14), (3, 7, 11, 15),
    (0, 5, 10, 15), (1, 6, 11, 12), (2, 7, 8, 13), (3, 4, 9, 14)]

def round (block : Array UInt64) (v : Array UInt64) (order : Array Nat) : Array UInt64 :=
  lanes.zipIdx.foldl
    (fun v ((a, b, c, d), i) =>
      mix v a b c d (block.getD (order.getD (2 * i) 0) 0) (block.getD (order.getD (2 * i + 1) 0) 0))
    v

/-- Works one block into the state. `count` is the number of bytes up to its end. -/
def compress (state block : Array UInt64) (count : UInt64) (last : Bool) : Array UInt64 :=
  let v := state ++ initial
  let v := v.setIfInBounds 12 (v.getD 12 0 ^^^ count)
  let v := if last then v.setIfInBounds 14 (v.getD 14 0 ^^^ 0xffffffffffffffff) else v
  let v := rounds.foldl (round block) v
  (Array.range 8).map fun i => state.getD i 0 ^^^ v.getD i 0 ^^^ v.getD (i + 8) 0

def littleEndian (bytes : List UInt8) : Nat :=
  bytes.foldr (fun byte rest => byte.toNat + 256 * rest) 0

def blockSize : Nat := 128

def wordsOf (bytes : List UInt8) : Array UInt64 :=
  (Array.range 16).map fun i => UInt64.ofNat (littleEndian ((bytes.drop (8 * i)).take 8))

def personalisation : List UInt8 := "vibeplan".toUTF8.toList

/-- The state before the first block: the length of the digest and the personalisation are mixed
in. -/
def start : Array UInt64 :=
  let state := initial.setIfInBounds 0 (initial.getD 0 0 ^^^ 0x01010008)
  state.setIfInBounds 6 (state.getD 6 0 ^^^ UInt64.ofNat (littleEndian personalisation))

def absorb (state : Array UInt64) (done : Nat) (bytes : List UInt8) : Array UInt64 :=
  if bytes.length ≤ blockSize then
    compress state (wordsOf bytes) (UInt64.ofNat (done + bytes.length)) true
  else
    absorb (compress state (wordsOf bytes) (UInt64.ofNat (done + blockSize)) false)
      (done + blockSize) (bytes.drop blockSize)
termination_by bytes.length
decreasing_by simp [blockSize] at *; omega

def ofText (s : String) : Nat := ((absorb start 0 s.toUTF8.toList).getD 0 0).toNat

end Groundwork.Embedding.Digest
