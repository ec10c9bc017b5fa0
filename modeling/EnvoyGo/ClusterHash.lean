import EnvoyGo.HTTPHeader

/-!
The digests of `internal/cluster/hash.go`: XXH64 with a seed and MurmurHash64A, on 64-bit words.
-/

namespace EnvoyGo.ClusterHash

def prime1 : UInt64 := 0x9E3779B185EBCA87

def prime2 : UInt64 := 0xC2B2AE3D27D4EB4F

def prime3 : UInt64 := 0x165667B19E3779F9

def prime4 : UInt64 := 0x85EBCA77C2B2AE63

def prime5 : UInt64 := 0x27D4EB2F165667C5

/-- `bits.RotateLeft64`, for `0 < k < 64`. -/
def rotateLeft (x k : UInt64) : UInt64 := (x <<< k) ||| (x >>> (64 - k))

def littleEndian : Bytes → UInt64
  | [] => 0
  | b :: bs => b.toUInt64 + 256 * littleEndian bs

/-- `binary.LittleEndian.Uint64(b[i:i+8])`. -/
def word (b : Bytes) (i : Nat) : UInt64 := littleEndian ((b.drop i).take 8)

def xxRound (acc input : UInt64) : UInt64 := rotateLeft (acc + input * prime2) 31 * prime1

def xxMergeRound (acc val : UInt64) : UInt64 := (acc ^^^ xxRound 0 val) * prime1 + prime4

structure Lanes where
  v1 : UInt64
  v2 : UInt64
  v3 : UInt64
  v4 : UInt64

def Lanes.start (seed : UInt64) : Lanes where
  v1 := seed + prime1 + prime2
  v2 := seed + prime2
  v3 := seed
  v4 := seed - prime1

def Lanes.round (v : Lanes) (b : Bytes) : Lanes where
  v1 := xxRound v.v1 (word b 0)
  v2 := xxRound v.v2 (word b 8)
  v3 := xxRound v.v3 (word b 16)
  v4 := xxRound v.v4 (word b 24)

def Lanes.stripes : Nat → Lanes → Bytes → Lanes
  | 0, v, _ => v
  | n + 1, v, b => Lanes.stripes n (v.round b) (b.drop 32)

def Lanes.merge (v : Lanes) : UInt64 :=
  let h := rotateLeft v.v1 1 + rotateLeft v.v2 7 + rotateLeft v.v3 12 + rotateLeft v.v4 18
  xxMergeRound (xxMergeRound (xxMergeRound (xxMergeRound h v.v1) v.v2) v.v3) v.v4

def tailWords : Nat → UInt64 → Bytes → UInt64
  | 0, h, _ => h
  | n + 1, h, b =>
    tailWords n (rotateLeft (h ^^^ xxRound 0 (word b 0)) 27 * prime1 + prime4) (b.drop 8)

def tailByte (h : UInt64) (c : UInt8) : UInt64 :=
  rotateLeft (h ^^^ (c.toUInt64 * prime5)) 11 * prime1

def tailBytes (h : UInt64) (b : Bytes) : UInt64 :=
  if 4 ≤ b.length then
    (b.drop 4).foldl tailByte
      (rotateLeft (h ^^^ (littleEndian (b.take 4) * prime1)) 23 * prime2 + prime3)
  else b.foldl tailByte h

def avalanche (h : UInt64) : UInt64 :=
  let h := (h ^^^ (h >>> 33)) * prime2
  let h := (h ^^^ (h >>> 29)) * prime3
  h ^^^ (h >>> 32)

def xxHash64Seed (b : Bytes) (seed : UInt64) : UInt64 :=
  let n := b.length
  let h := if 32 ≤ n then (Lanes.stripes (n / 32) (.start seed) b).merge else seed + prime5
  let tail := b.drop (32 * (n / 32))
  let h := tailWords (tail.length / 8) (h + UInt64.ofNat n) tail
  avalanche (tailBytes h (tail.drop (8 * (tail.length / 8))))

def xxHash64 (b : Bytes) : UInt64 := xxHash64Seed b 0

def murmurM : UInt64 := 0xc6a4a7935bd1e995

def murmurBlocks : Nat → UInt64 → Bytes → UInt64
  | 0, h, _ => h
  | n + 1, h, b =>
    let k := word b 0 * murmurM
    murmurBlocks n ((h ^^^ ((k ^^^ (k >>> 47)) * murmurM)) * murmurM) (b.drop 8)

def murmurTail (h : UInt64) (b : Bytes) : UInt64 :=
  if b.isEmpty then h else (h ^^^ littleEndian b) * murmurM

def murmurHash2 (b : Bytes) (seed : UInt64) : UInt64 :=
  let blocks := b.length / 8
  let h := murmurBlocks blocks (seed ^^^ (UInt64.ofNat b.length * murmurM)) b
  let h := murmurTail h (b.drop (8 * blocks))
  let h := (h ^^^ (h >>> 47)) * murmurM
  h ^^^ (h >>> 47)

-- Two of the vectors that `hash_test.go` pins.
example : xxHash64 (textBytes "127.0.0.1:9001_0") = 0x3eee954d5ec5315f := by decide +kernel

example : murmurHash2 (textBytes "127.0.0.1:9001_0") 0xc70f6907 = 0xc2a19fe5a9c77221 := by
  decide +kernel

end EnvoyGo.ClusterHash
