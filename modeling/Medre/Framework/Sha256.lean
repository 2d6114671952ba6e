import Mathlib.Data.List.Basic
import Mathlib.Tactic.Common

/-! # SHA-256 (FIPS 180-4) of a byte sequence, as a lower-case hex digest -/

namespace Medre.Framework.Sha256

open List

def roundConstants : List UInt32 :=
  [0x428a2f98, 0x71374491, 0xb5c0fbcf, 0xe9b5dba5, 0x3956c25b, 0x59f111f1, 0x923f82a4,
   0xab1c5ed5, 0xd807aa98, 0x12835b01, 0x243185be, 0x550c7dc3, 0x72be5d74, 0x80deb1fe,
   0x9bdc06a7, 0xc19bf174, 0xe49b69c1, 0xefbe4786, 0x0fc19dc6, 0x240ca1cc, 0x2de92c6f,
   0x4a7484aa, 0x5cb0a9dc, 0x76f988da, 0x983e5152, 0xa831c66d, 0xb00327c8, 0xbf597fc7,
   0xc6e00bf3, 0xd5a79147, 0x06ca6351, 0x14292967, 0x27b70a85, 0x2e1b2138, 0x4d2c6dfc,
   0x53380d13, 0x650a7354, 0x766a0abb, 0x81c2c92e, 0x92722c85, 0xa2bfe8a1, 0xa81a664b,
   0xc24b8b70, 0xc76c51a3, 0xd192e819, 0xd6990624, 0xf40e3585, 0x106aa070, 0x19a4c116,
   0x1e376c08, 0x2748774c, 0x34b0bcb5, 0x391c0cb3, 0x4ed8aa4a, 0x5b9cca4f, 0x682e6ff3,
   0x748f82ee, 0x78a5636f, 0x84c87814, 0x8cc70208, 0x90befffa, 0xa4506ceb, 0xbef9a3f7,
   0xc67178f2]

/-- The eight working words. -/
structure Words where
  a : UInt32
  b : UInt32
  c : UInt32
  d : UInt32
  e : UInt32
  f : UInt32
  g : UInt32
  h : UInt32

def initial : Words :=
  ⟨0x6a09e667, 0xbb67ae85, 0x3c6ef372, 0xa54ff53a, 0x510e527f, 0x9b05688c, 0x1f83d9ab,
    0x5be0cd19⟩

def rotr (x : UInt32) (n : UInt32) : UInt32 := (x >>> n) ||| (x <<< (32 - n))

def smallSigma0 (x : UInt32) : UInt32 := rotr x 7 ^^^ rotr x 18 ^^^ (x >>> 3)
def smallSigma1 (x : UInt32) : UInt32 := rotr x 17 ^^^ rotr x 19 ^^^ (x >>> 10)
def bigSigma0 (x : UInt32) : UInt32 := rotr x 2 ^^^ rotr x 13 ^^^ rotr x 22
def bigSigma1 (x : UInt32) : UInt32 := rotr x 6 ^^^ rotr x 11 ^^^ rotr x 25

/-- The message schedule, newest word first. -/
def extend : (n : ℕ) → List UInt32 → List UInt32
  | 0, ws => ws
  | n + 1, ws =>
    extend n
      ((smallSigma1 (ws.getD 1 0) + ws.getD 6 0 + smallSigma0 (ws.getD 14 0) +
        ws.getD 15 0) :: ws)

def round (s : Words) (kw : UInt32 × UInt32) : Words :=
  let t1 := s.h + bigSigma1 s.e + ((s.e &&& s.f) ^^^ (~~~s.e &&& s.g)) + kw.1 + kw.2
  let t2 := bigSigma0 s.a + ((s.a &&& s.b) ^^^ (s.a &&& s.c) ^^^ (s.b &&& s.c))
  ⟨t1 + t2, s.a, s.b, s.c, s.d + t1, s.e, s.f, s.g⟩

def compress (s : Words) (block : List UInt32) : Words :=
  let ws := (extend 48 block.reverse).reverse
  let t := (roundConstants.zip ws).foldl round s
  ⟨s.a + t.a, s.b + t.b, s.c + t.c, s.d + t.d, s.e + t.e, s.f + t.f, s.g + t.g, s.h + t.h⟩

/-- Big-endian words of a byte sequence. -/
def wordsOf : List UInt8 → List UInt32
  | a :: b :: c :: d :: bs =>
    ((a.toUInt32 <<< 24) ||| (b.toUInt32 <<< 16) ||| (c.toUInt32 <<< 8) |||
      d.toUInt32) :: wordsOf bs
  | _ => []

/-- The last `n` base-256 digits of `v`, most significant first. -/
def bytesOf : (n v : ℕ) → List UInt8
  | 0, _ => []
  | n + 1, v => bytesOf n (v / 256) ++ [UInt8.ofNat (v % 256)]

def pad (message : List UInt8) : List UInt8 :=
  message ++ 0x80 :: List.replicate ((55 + 64 - message.length % 64) % 64) 0 ++
    bytesOf 8 (message.length * 8)

def compressAll : (blocks : ℕ) → Words → List UInt32 → Words
  | 0, s, _ => s
  | n + 1, s, ws => compressAll n (compress s (ws.take 16)) (ws.drop 16)

def hexDigit (n : ℕ) : Char := Char.ofNat (if n < 10 then 48 + n else 87 + n)

/-- The last `n` hex digits of `v`, most significant first. -/
def hexOf : (n v : ℕ) → List Char
  | 0, _ => []
  | n + 1, v => hexOf n (v / 16) ++ [hexDigit (v % 16)]

/-- `hashlib.sha256(message).hexdigest()`. -/
def hexdigest (message : List UInt8) : String :=
  let ws := wordsOf (pad message)
  let s := compressAll (ws.length / 16) initial ws
  String.ofList
    ([s.a, s.b, s.c, s.d, s.e, s.f, s.g, s.h].flatMap fun w => hexOf 8 w.toNat)

def isHexDigit (c : Char) : Bool := ('0' ≤ c && c ≤ '9') || ('a' ≤ c && c ≤ 'f')

theorem hexOf_length (n v : ℕ) : (hexOf n v).length = n := by
  induction n generalizing v with
  | zero => rfl
  | succ n ih => rw [hexOf, length_append, ih, length_singleton]

theorem isHexDigit_hexDigit : ∀ n < 16, isHexDigit (hexDigit n) = true := by decide

theorem hexOf_hex (n v : ℕ) : (hexOf n v).all isHexDigit = true := by
  induction n generalizing v with
  | zero => rfl
  | succ n ih =>
    rw [hexOf, all_append, ih, all_cons, isHexDigit_hexDigit _ (Nat.mod_lt v (by decide))]
    rfl

theorem hexdigest_length (message : List UInt8) : (hexdigest message).toList.length = 64 := by
  simp only [hexdigest, String.toList_ofList, length_flatMap, hexOf_length, map_cons,
    map_nil, sum_cons, sum_nil]
  rfl

theorem hexdigest_hex (message : List UInt8) :
    (hexdigest message).toList.all isHexDigit = true := by
  simp only [hexdigest, String.toList_ofList, all_flatMap, hexOf_hex, all_cons,
    all_nil, Bool.and_self]

example : hexdigest [97, 98, 99] =
    "ba7816bf8f01cfea414140de5dae2223b00361a396177a9cb410ff61f20015ad" := by
  decide +kernel

end Medre.Framework.Sha256
