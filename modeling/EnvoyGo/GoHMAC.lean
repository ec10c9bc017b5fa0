import EnvoyGo.HTTPHeader

/-!
`crypto/sha256` and `crypto/hmac` over numbers below `2^32`, so that a digest of a concrete
message can be computed.
-/

namespace EnvoyGo.Crypto

def roundConstants : List Nat :=
  [0x428a2f98, 0x71374491, 0xb5c0fbcf, 0xe9b5dba5, 0x3956c25b, 0x59f111f1, 0x923f82a4, 0xab1c5ed5,
   0xd807aa98, 0x12835b01, 0x243185be, 0x550c7dc3, 0x72be5d74, 0x80deb1fe, 0x9bdc06a7, 0xc19bf174,
   0xe49b69c1, 0xefbe4786, 0x0fc19dc6, 0x240ca1cc, 0x2de92c6f, 0x4a7484aa, 0x5cb0a9dc, 0x76f988da,
   0x983e5152, 0xa831c66d, 0xb00327c8, 0xbf597fc7, 0xc6e00bf3, 0xd5a79147, 0x06ca6351, 0x14292967,
   0x27b70a85, 0x2e1b2138, 0x4d2c6dfc, 0x53380d13, 0x650a7354, 0x766a0abb, 0x81c2c92e, 0x92722c85,
   0xa2bfe8a1, 0xa81a664b, 0xc24b8b70, 0xc76c51a3, 0xd192e819, 0xd6990624, 0xf40e3585, 0x106aa070,
   0x19a4c116, 0x1e376c08, 0x2748774c, 0x34b0bcb5, 0x391c0cb3, 0x4ed8aa4a, 0x5b9cca4f, 0x682e6ff3,
   0x748f82ee, 0x78a5636f, 0x84c87814, 0x8cc70208, 0x90befffa, 0xa4506ceb, 0xbef9a3f7, 0xc67178f2]

def rotr (n x : Nat) : Nat := (x >>> n ||| x <<< (32 - n)) % 2^32

def scheduleStep (w : List Nat) : List Nat :=
  let w15 := w.getD 14 0
  let w2 := w.getD 1 0
  let s0 := rotr 7 w15 ^^^ rotr 18 w15 ^^^ (w15 >>> 3)
  let s1 := rotr 17 w2 ^^^ rotr 19 w2 ^^^ (w2 >>> 10)
  (w.getD 15 0 + s0 + w.getD 6 0 + s1) % 2^32 :: w

def schedule : Nat → List Nat → List Nat
  | 0, w => w
  | n + 1, w => schedule n (scheduleStep w)

structure Words where
  a : Nat
  b : Nat
  c : Nat
  d : Nat
  e : Nat
  f : Nat
  g : Nat
  h : Nat

def Words.initial : Words where
  a := 0x6a09e667
  b := 0xbb67ae85
  c := 0x3c6ef372
  d := 0xa54ff53a
  e := 0x510e527f
  f := 0x9b05688c
  g := 0x1f83d9ab
  h := 0x5be0cd19

def round (s : Words) (kw : Nat × Nat) : Words :=
  let s1 := rotr 6 s.e ^^^ rotr 11 s.e ^^^ rotr 25 s.e
  let ch := (s.e &&& s.f) ^^^ ((2^32 - 1 - s.e) &&& s.g)
  let t1 := (s.h + s1 + ch + kw.1 + kw.2) % 2^32
  let s0 := rotr 2 s.a ^^^ rotr 13 s.a ^^^ rotr 22 s.a
  let maj := (s.a &&& s.b) ^^^ (s.a &&& s.c) ^^^ (s.b &&& s.c)
  { a := (t1 + s0 + maj) % 2^32
    b := s.a
    c := s.b
    d := s.c
    e := (s.d + t1) % 2^32
    f := s.e
    g := s.f
    h := s.g }

def Words.add (s t : Words) : Words where
  a := (s.a + t.a) % 2^32
  b := (s.b + t.b) % 2^32
  c := (s.c + t.c) % 2^32
  d := (s.d + t.d) % 2^32
  e := (s.e + t.e) % 2^32
  f := (s.f + t.f) % 2^32
  g := (s.g + t.g) % 2^32
  h := (s.h + t.h) % 2^32

def wordsOf : Bytes → List Nat
  | a :: b :: c :: d :: rest =>
    (2^24*a.toNat + 2^16*b.toNat + 2^8*c.toNat + d.toNat) :: wordsOf rest
  | _ => []

def compress (s : Words) (block : Bytes) : Words :=
  let w := (schedule 48 (wordsOf block).reverse).reverse
  s.add ((roundConstants.zip w).foldl round s)

def chunks : Nat → Bytes → List Bytes
  | 0, _ => []
  | n + 1, bs => bs.take 64 :: chunks n (bs.drop 64)

def bigEndian (width n : Nat) : Bytes :=
  (List.range width).map (fun i => UInt8.ofNat (n >>> (8*(width - 1 - i))))

def padded (msg : Bytes) : Bytes :=
  msg ++ [0x80] ++ List.replicate ((119 - msg.length % 64) % 64) 0 ++ bigEndian 8 (8*msg.length)

def Words.digest (s : Words) : Bytes :=
  bigEndian 4 s.a ++ bigEndian 4 s.b ++ bigEndian 4 s.c ++ bigEndian 4 s.d ++
    bigEndian 4 s.e ++ bigEndian 4 s.f ++ bigEndian 4 s.g ++ bigEndian 4 s.h

/-- `sha256.Sum256`. -/
def sha256 (msg : Bytes) : Bytes :=
  let p := padded msg
  ((chunks (p.length / 64) p).foldl compress Words.initial).digest

def hmacKey (key : Bytes) : Bytes :=
  let k := if key.length > 64 then sha256 key else key
  k ++ List.replicate (64 - k.length) 0

/-- `hmac.New(sha256.New, key)`, `Write(msg)`, `Sum(nil)`. -/
def hmacSHA256 (key msg : Bytes) : Bytes :=
  let k := hmacKey key
  sha256 (k.map (fun b => b ^^^ 0x5c) ++ sha256 (k.map (fun b => b ^^^ 0x36) ++ msg))

theorem length_bigEndian (width n : Nat) : (bigEndian width n).length = width := by
  rw [bigEndian, List.length_map, List.length_range]

theorem length_sha256 (msg : Bytes) : (sha256 msg).length = 32 := by
  simp only [sha256, Words.digest, List.length_append, length_bigEndian]

example : (sha256 (textBytes "abc")).take 4 = [0xba, 0x78, 0x16, 0xbf] := by decide +kernel

end EnvoyGo.Crypto
