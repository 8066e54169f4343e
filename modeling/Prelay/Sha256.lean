import Mathlib.Algebra.GroupWithZero.Nat
import Mathlib.Data.Nat.Notation

namespace Sha256

def roundConstants : List ℕ := [
  0x428a2f98, 0x71374491, 0xb5c0fbcf, 0xe9b5dba5, 0x3956c25b, 0x59f111f1, 0x923f82a4, 0xab1c5ed5,
  0xd807aa98, 0x12835b01, 0x243185be, 0x550c7dc3, 0x72be5d74, 0x80deb1fe, 0x9bdc06a7, 0xc19bf174,
  0xe49b69c1, 0xefbe4786, 0x0fc19dc6, 0x240ca1cc, 0x2de92c6f, 0x4a7484aa, 0x5cb0a9dc, 0x76f988da,
  0x983e5152, 0xa831c66d, 0xb00327c8, 0xbf597fc7, 0xc6e00bf3, 0xd5a79147, 0x06ca6351, 0x14292967,
  0x27b70a85, 0x2e1b2138, 0x4d2c6dfc, 0x53380d13, 0x650a7354, 0x766a0abb, 0x81c2c92e, 0x92722c85,
  0xa2bfe8a1, 0xa81a664b, 0xc24b8b70, 0xc76c51a3, 0xd192e819, 0xd6990624, 0xf40e3585, 0x106aa070,
  0x19a4c116, 0x1e376c08, 0x2748774c, 0x34b0bcb5, 0x391c0cb3, 0x4ed8aa4a, 0x5b9cca4f, 0x682e6ff3,
  0x748f82ee, 0x78a5636f, 0x84c87814, 0x8cc70208, 0x90befffa, 0xa4506ceb, 0xbef9a3f7, 0xc67178f2]

structure Words where
  a : ℕ := 0x6a09e667
  b : ℕ := 0xbb67ae85
  c : ℕ := 0x3c6ef372
  d : ℕ := 0xa54ff53a
  e : ℕ := 0x510e527f
  f : ℕ := 0x9b05688c
  g : ℕ := 0x1f83d9ab
  h : ℕ := 0x5be0cd19

def word (n : ℕ) : ℕ := n % 2 ^ 32

def rotate (n x : ℕ) : ℕ := (x >>> n) ||| word (x <<< (32 - n))

/-- The next word of the schedule from the sixteen before it, the last of them first. -/
def scheduled (words : List ℕ) : ℕ :=
  let x := words.getD 14 0
  let y := words.getD 1 0
  word (words.getD 15 0 + (rotate 7 x ^^^ rotate 18 x ^^^ (x >>> 3)) + words.getD 6 0 +
    (rotate 17 y ^^^ rotate 19 y ^^^ (y >>> 10)))

def schedule (block : List ℕ) : List ℕ :=
  ((List.range 48).foldl (fun words _ => scheduled words :: words) block.reverse).reverse

def round (s : Words) (kw : ℕ × ℕ) : Words :=
  let t₁ := s.h + (rotate 6 s.e ^^^ rotate 11 s.e ^^^ rotate 25 s.e) + ((s.e &&& s.f) ^^^ ((2 ^ 32 - 1 - s.e) &&& s.g)) +
    kw.1 + kw.2
  let t₂ := (rotate 2 s.a ^^^ rotate 13 s.a ^^^ rotate 22 s.a) + ((s.a &&& s.b) ^^^ (s.a &&& s.c) ^^^ (s.b &&& s.c))
  ⟨word (t₁ + t₂), s.a, s.b, s.c, word (s.d + t₁), s.e, s.f, s.g⟩

def compress (s : Words) (block : List ℕ) : Words :=
  let t := (roundConstants.zip (schedule block)).foldl round s
  ⟨word (s.a + t.a), word (s.b + t.b), word (s.c + t.c), word (s.d + t.d), word (s.e + t.e), word (s.f + t.f),
    word (s.g + t.g), word (s.h + t.h)⟩

def bigEndian (size n : ℕ) : List UInt8 := ((List.range size).map (fun i => UInt8.ofNat (n / 256 ^ i))).reverse

def pad (message : List UInt8) : List UInt8 :=
  message ++ [0x80] ++ List.replicate ((119 - message.length % 64) % 64) 0 ++ bigEndian 8 (8 * message.length)

def wordsOf : List UInt8 → List ℕ
  | a :: b :: c :: d :: rest => (((a.toNat * 256 + b.toNat) * 256 + c.toNat) * 256 + d.toNat) :: wordsOf rest
  | _ => []

def compressBlocks (s : Words) : ℕ → List ℕ → Words
  | 0, _ => s
  | count + 1, words => compressBlocks (compress s (words.take 16)) count (words.drop 16)

def digest (message : List UInt8) : List UInt8 :=
  let words := wordsOf (pad message)
  let s := compressBlocks {} (words.length / 16) words
  [s.a, s.b, s.c, s.d, s.e, s.f, s.g, s.h].flatMap (bigEndian 4)

theorem digest_length (message : List UInt8) : (digest message).length = 32 := by
  simp [digest, bigEndian]

example : digest [97, 98, 99] = [0xba, 0x78, 0x16, 0xbf, 0x8f, 0x01, 0xcf, 0xea, 0x41, 0x41, 0x40, 0xde, 0x5d, 0xae,
    0x22, 0x23, 0xb0, 0x03, 0x61, 0xa3, 0x96, 0x17, 0x7a, 0x9c, 0xb4, 0x10, 0xff, 0x61, 0xf2, 0x00, 0x15, 0xad] := by
  decide +kernel

end Sha256
