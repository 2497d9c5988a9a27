import Mathlib.Data.List.Basic
import Mathlib.Data.Nat.Bitwise

/-!
SHA-256 (FIPS 180-4) on the UTF-8 bytes of a string, in the lower-case
hexadecimal form in which digests are stored and compared. Words are naturals
below `2 ^ 32`. Nothing below this module depends on how the digest is
computed, except that it is never the empty string; the definition is concrete
so that runs of the programs that use it can be evaluated.
-/

namespace DdsOrchestrator.Sha256

def wordSize : Nat := 4294967296

def rotr (x n : Nat) : Nat := ((x >>> n) ||| (x <<< (32 - n))) % wordSize

/-- The round constants. -/
def roundKeys : List Nat :=
  [0x428a2f98, 0x71374491, 0xb5c0fbcf, 0xe9b5dba5, 0x3956c25b, 0x59f111f1, 0x923f82a4, 0xab1c5ed5,
   0xd807aa98, 0x12835b01, 0x243185be, 0x550c7dc3, 0x72be5d74, 0x80deb1fe, 0x9bdc06a7, 0xc19bf174,
   0xe49b69c1, 0xefbe4786, 0x0fc19dc6, 0x240ca1cc, 0x2de92c6f, 0x4a7484aa, 0x5cb0a9dc, 0x76f988da,
   0x983e5152, 0xa831c66d, 0xb00327c8, 0xbf597fc7, 0xc6e00bf3, 0xd5a79147, 0x06ca6351, 0x14292967,
   0x27b70a85, 0x2e1b2138, 0x4d2c6dfc, 0x53380d13, 0x650a7354, 0x766a0abb, 0x81c2c92e, 0x92722c85,
   0xa2bfe8a1, 0xa81a664b, 0xc24b8b70, 0xc76c51a3, 0xd192e819, 0xd6990624, 0xf40e3585, 0x106aa070,
   0x19a4c116, 0x1e376c08, 0x2748774c, 0x34b0bcb5, 0x391c0cb3, 0x4ed8aa4a, 0x5b9cca4f, 0x682e6ff3,
   0x748f82ee, 0x78a5636f, 0x84c87814, 0x8cc70208, 0x90befffa, 0xa4506ceb, 0xbef9a3f7, 0xc67178f2]

/-- The eight working variables. -/
structure Working where
  a : Nat
  b : Nat
  c : Nat
  d : Nat
  e : Nat
  f : Nat
  g : Nat
  h : Nat
  deriving DecidableEq

def initial : Working :=
  ⟨0x6a09e667, 0xbb67ae85, 0x3c6ef372, 0xa54ff53a, 0x510e527f, 0x9b05688c, 0x1f83d9ab, 0x5be0cd19⟩

def roundStep (s : Working) (k w : Nat) : Working :=
  let s1 := rotr s.e 6 ^^^ rotr s.e 11 ^^^ rotr s.e 25
  let ch := (s.e &&& s.f) ^^^ ((wordSize - 1 - s.e) &&& s.g)
  let t1 := (s.h + s1 + ch + k + w) % wordSize
  let s0 := rotr s.a 2 ^^^ rotr s.a 13 ^^^ rotr s.a 22
  let maj := (s.a &&& s.b) ^^^ (s.a &&& s.c) ^^^ (s.b &&& s.c)
  ⟨(t1 + s0 + maj) % wordSize, s.a, s.b, s.c, (s.d + t1) % wordSize, s.e, s.f, s.g⟩

/-- The next word of the message schedule, from the sixteen before it. -/
def nextWord : List Nat → Nat
  | [w0, w1, _, _, _, _, _, _, _, w9, _, _, _, _, w14, _] =>
      let s0 := rotr w1 7 ^^^ rotr w1 18 ^^^ (w1 >>> 3)
      let s1 := rotr w14 17 ^^^ rotr w14 19 ^^^ (w14 >>> 10)
      (w0 + s0 + w9 + s1) % wordSize
  | _ => 0

/-- The rounds, sliding a window of sixteen schedule words along the keys. -/
def rounds : List Nat → List Nat → Working → Working
  | [], _, s => s
  | k :: ks, ws, s => rounds ks (ws.tail ++ [nextWord ws]) (roundStep s k (ws.headD 0))

def compress (s : Working) (block : List Nat) : Working :=
  let r := rounds roundKeys block s
  ⟨(s.a + r.a) % wordSize, (s.b + r.b) % wordSize, (s.c + r.c) % wordSize, (s.d + r.d) % wordSize,
    (s.e + r.e) % wordSize, (s.f + r.f) % wordSize, (s.g + r.g) % wordSize, (s.h + r.h) % wordSize⟩

/-- Padding: a one bit, zeros up to 56 bytes mod 64, and the bit length. -/
def pad (bytes : List Nat) : List Nat :=
  let n := bytes.length
  bytes ++ 128 :: (List.replicate ((119 - n % 64) % 64) 0 ++
    [7, 6, 5, 4, 3, 2, 1, 0].map fun i => ((n * 8) >>> (8 * i)) % 256)

def words : List Nat → List Nat
  | a :: b :: c :: d :: rest => (((a * 256 + b) * 256 + c) * 256 + d) :: words rest
  | _ => []

def blocks : Nat → List Nat → List (List Nat)
  | 0, _ => []
  | n + 1, ws => ws.take 16 :: blocks n (ws.drop 16)

def digest (bytes : List Nat) : Working :=
  let ws := words (pad bytes)
  (blocks (ws.length / 16) ws).foldl compress initial

def hexDigits (w : Nat) : List Char :=
  [7, 6, 5, 4, 3, 2, 1, 0].map fun i => Nat.digitChar ((w >>> (4 * i)) % 16)

end Sha256

/-- `format!("{:x}", Sha256::digest(s.as_bytes()))`. -/
def sha256Hex (s : String) : String :=
  let d := Sha256.digest (s.toUTF8.data.toList.map UInt8.toNat)
  String.ofList ([d.a, d.b, d.c, d.d, d.e, d.f, d.g, d.h].flatMap Sha256.hexDigits)

theorem Sha256.length_hexDigits (w : Nat) : (Sha256.hexDigits w).length = 8 := rfl

theorem length_sha256Hex (s : String) : (sha256Hex s).toList.length = 64 := by
  unfold sha256Hex
  generalize Sha256.digest _ = d
  simp only [String.toList_ofList, List.length_flatMap, Sha256.length_hexDigits, List.map_cons,
    List.map_nil, List.sum_cons, List.sum_nil]
  rfl

theorem sha256Hex_ne_empty (s : String) : sha256Hex s ≠ "" := by
  intro h
  have hlength := length_sha256Hex s
  rw [h] at hlength
  cases hlength

example : sha256Hex "abc" =
    "ba7816bf8f01cfea414140de5dae2223b00361a396177a9cb410ff61f20015ad" := by
  decide +kernel

end DdsOrchestrator
