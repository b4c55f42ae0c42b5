import FlagLine.Data.Value
/-!
# SHA-256

The digest of FIPS 180-4. The message is padded with one set bit, then zero bits, then
its length in bits as eight big-endian bytes, to a whole number of 64-byte blocks. Each
block is read as sixteen big-endian words and extended to a schedule of 64 words, and
64 rounds mix the schedule into a working copy of the eight-word state, which is then
added back word by word. The digest is the final state as 32 big-endian bytes, and its
text is those bytes in lowercase hexadecimal.
-/

namespace FlagLine.Sha256

/-- The round constants: the first 32 bits of the fractional parts of the cube roots of
the first 64 primes. -/
def roundConstants : Array UInt32 := #[
  0x428a2f98, 0x71374491, 0xb5c0fbcf, 0xe9b5dba5, 0x3956c25b, 0x59f111f1, 0x923f82a4, 0xab1c5ed5,
  0xd807aa98, 0x12835b01, 0x243185be, 0x550c7dc3, 0x72be5d74, 0x80deb1fe, 0x9bdc06a7, 0xc19bf174,
  0xe49b69c1, 0xefbe4786, 0x0fc19dc6, 0x240ca1cc, 0x2de92c6f, 0x4a7484aa, 0x5cb0a9dc, 0x76f988da,
  0x983e5152, 0xa831c66d, 0xb00327c8, 0xbf597fc7, 0xc6e00bf3, 0xd5a79147, 0x06ca6351, 0x14292967,
  0x27b70a85, 0x2e1b2138, 0x4d2c6dfc, 0x53380d13, 0x650a7354, 0x766a0abb, 0x81c2c92e, 0x92722c85,
  0xa2bfe8a1, 0xa81a664b, 0xc24b8b70, 0xc76c51a3, 0xd192e819, 0xd6990624, 0xf40e3585, 0x106aa070,
  0x19a4c116, 0x1e376c08, 0x2748774c, 0x34b0bcb5, 0x391c0cb3, 0x4ed8aa4a, 0x5b9cca4f, 0x682e6ff3,
  0x748f82ee, 0x78a5636f, 0x84c87814, 0x8cc70208, 0x90befffa, 0xa4506ceb, 0xbef9a3f7, 0xc67178f2]

/-- The initial state: the first 32 bits of the fractional parts of the square roots of
the first eight primes. -/
def initialState : Array UInt32 := #[0x6a09e667, 0xbb67ae85, 0x3c6ef372, 0xa54ff53a, 0x510e527f,
  0x9b05688c, 0x1f83d9ab, 0x5be0cd19]

def rotr (x n : UInt32) : UInt32 := (x >>> n) ||| (x <<< (32 - n))

def bigSigma0 (x : UInt32) : UInt32 := rotr x 2 ^^^ rotr x 13 ^^^ rotr x 22

def bigSigma1 (x : UInt32) : UInt32 := rotr x 6 ^^^ rotr x 11 ^^^ rotr x 25

def smallSigma0 (x : UInt32) : UInt32 := rotr x 7 ^^^ rotr x 18 ^^^ (x >>> 3)

def smallSigma1 (x : UInt32) : UInt32 := rotr x 17 ^^^ rotr x 19 ^^^ (x >>> 10)

def byteAt (b : ByteArray) (i : Nat) : UInt32 := (b.data.getD i 0).toUInt32

def wordAt (b : ByteArray) (i : Nat) : UInt32 :=
  (byteAt b i <<< 24) ||| (byteAt b (i + 1) <<< 16) ||| (byteAt b (i + 2) <<< 8) ||| byteAt b (i + 3)

def schedule (b : ByteArray) (start : Nat) : Array UInt32 :=
  (List.range 64).foldl (fun w i =>
    if i < 16 then w.push (wordAt b (start + 4 * i))
    else
      w.push (w.getD (i - 16) 0 + smallSigma0 (w.getD (i - 15) 0) + w.getD (i - 7) 0 +
        smallSigma1 (w.getD (i - 2) 0))) #[]

/-- The eight working words of a compression. -/
structure Registers where
  a : UInt32
  b : UInt32
  c : UInt32
  d : UInt32
  e : UInt32
  f : UInt32
  g : UInt32
  h : UInt32

def Registers.ofState (s : Array UInt32) : Registers :=
  ⟨s.getD 0 0, s.getD 1 0, s.getD 2 0, s.getD 3 0, s.getD 4 0, s.getD 5 0, s.getD 6 0, s.getD 7 0⟩

def Registers.step (r : Registers) (k w : UInt32) : Registers :=
  let choose := (r.e &&& r.f) ^^^ ((~~~ r.e) &&& r.g)
  let majority := (r.a &&& r.b) ^^^ (r.a &&& r.c) ^^^ (r.b &&& r.c)
  let t1 := r.h + bigSigma1 r.e + choose + k + w
  let t2 := bigSigma0 r.a + majority
  ⟨t1 + t2, r.a, r.b, r.c, r.d + t1, r.e, r.f, r.g⟩

def compress (state : Array UInt32) (b : ByteArray) (start : Nat) : Array UInt32 :=
  let w := schedule b start
  let r := (List.range 64).foldl (fun r i => r.step (roundConstants.getD i 0) (w.getD i 0))
    (Registers.ofState state)
  let added : Array UInt32 := #[state.getD 0 0 + r.a, state.getD 1 0 + r.b, state.getD 2 0 + r.c,
    state.getD 3 0 + r.d, state.getD 4 0 + r.e, state.getD 5 0 + r.f, state.getD 6 0 + r.g,
    state.getD 7 0 + r.h]
  added

def pad (m : ByteArray) : ByteArray :=
  let zeros := (119 - m.size % 64) % 64
  let bits := 8 * m.size
  let lengthBytes := (List.range 8).map (fun i => UInt8.ofNat (bits / Nat.pow 2 (8 * (7 - i)) % 256))
  m ++ ⟨#[0x80] ++ Array.replicate zeros 0 ++ lengthBytes.toArray⟩

def hash (m : ByteArray) : ByteArray :=
  let p := pad m
  let state := (List.range (p.size / 64)).foldl (fun s k => compress s p (64 * k)) initialState
  let bytesOfWord (w : UInt32) : Array UInt8 := #[(w >>> 24).toUInt8, (w >>> 16).toUInt8,
    (w >>> 8).toUInt8, w.toUInt8]
  ⟨state.flatMap bytesOfWord⟩

def hexText (b : ByteArray) : String :=
  String.ofList (b.data.toList.flatMap (fun x => hexPadded 2 x.toNat))

def hexDigest (m : ByteArray) : String := hexText (hash m)

end FlagLine.Sha256
