import Ccrc.Library.Utf8

/-! SHA-256 of a sequence of bytes. -/

set_option autoImplicit false

namespace Ccrc.Library

namespace Sha256

def roundConstants : List UInt32 :=
  [0x428a2f98, 0x71374491, 0xb5c0fbcf, 0xe9b5dba5, 0x3956c25b, 0x59f111f1, 0x923f82a4, 0xab1c5ed5,
    0xd807aa98, 0x12835b01, 0x243185be, 0x550c7dc3, 0x72be5d74, 0x80deb1fe, 0x9bdc06a7, 0xc19bf174,
    0xe49b69c1, 0xefbe4786, 0x0fc19dc6, 0x240ca1cc, 0x2de92c6f, 0x4a7484aa, 0x5cb0a9dc, 0x76f988da,
    0x983e5152, 0xa831c66d, 0xb00327c8, 0xbf597fc7, 0xc6e00bf3, 0xd5a79147, 0x06ca6351, 0x14292967,
    0x27b70a85, 0x2e1b2138, 0x4d2c6dfc, 0x53380d13, 0x650a7354, 0x766a0abb, 0x81c2c92e, 0x92722c85,
    0xa2bfe8a1, 0xa81a664b, 0xc24b8b70, 0xc76c51a3, 0xd192e819, 0xd6990624, 0xf40e3585, 0x106aa070,
    0x19a4c116, 0x1e376c08, 0x2748774c, 0x34b0bcb5, 0x391c0cb3, 0x4ed8aa4a, 0x5b9cca4f, 0x682e6ff3,
    0x748f82ee, 0x78a5636f, 0x84c87814, 0x8cc70208, 0x90befffa, 0xa4506ceb, 0xbef9a3f7, 0xc67178f2]

structure Working where
  a : UInt32
  b : UInt32
  c : UInt32
  d : UInt32
  e : UInt32
  f : UInt32
  g : UInt32
  h : UInt32
  deriving DecidableEq, Repr

def start : Working :=
  ⟨0x6a09e667, 0xbb67ae85, 0x3c6ef372, 0xa54ff53a, 0x510e527f, 0x9b05688c, 0x1f83d9ab, 0x5be0cd19⟩

def rotate (word count : UInt32) : UInt32 := (word >>> count) ||| (word <<< (32 - count))

/-- The next word of a schedule whose newest word is first. -/
def nextWord (words : List UInt32) : UInt32 :=
  let before (back : Nat) := words.getD (back - 1) 0
  let first := before 15
  let second := before 2
  before 16 + (rotate first 7 ^^^ rotate first 18 ^^^ (first >>> 3)) + before 7 +
    (rotate second 17 ^^^ rotate second 19 ^^^ (second >>> 10))

def extend : Nat → List UInt32 → List UInt32
  | 0, words => words
  | count + 1, words => extend count (nextWord words :: words)

def round (state : Working) (input : UInt32 × UInt32) : Working :=
  let choice := (state.e &&& state.f) ^^^ (~~~state.e &&& state.g)
  let majority := (state.a &&& state.b) ^^^ (state.a &&& state.c) ^^^ (state.b &&& state.c)
  let upper := rotate state.e 6 ^^^ rotate state.e 11 ^^^ rotate state.e 25
  let lower := rotate state.a 2 ^^^ rotate state.a 13 ^^^ rotate state.a 22
  let mixed := state.h + upper + choice + input.1 + input.2
  ⟨mixed + (lower + majority), state.a, state.b, state.c, state.d + mixed, state.e, state.f, state.g⟩

def bigEndian (bytes : Bytes) : Nat := bytes.foldl (fun value byte => value * 256 + byte.toNat) 0

/-- The four-byte words of a block. -/
def blockWords : Bytes → List UInt32
  | a :: b :: c :: d :: rest => UInt32.ofNat (bigEndian [a, b, c, d]) :: blockWords rest
  | _ => []

def compress (state : Working) (block : Bytes) : Working :=
  let schedule := (extend 48 (blockWords block).reverse).reverse
  let last := (roundConstants.zip schedule).foldl round state
  ⟨state.a + last.a, state.b + last.b, state.c + last.c, state.d + last.d, state.e + last.e,
    state.f + last.f, state.g + last.g, state.h + last.h⟩

end Sha256

/-- The low `count` bytes of a number, the highest first. -/
def bigEndianBytes : Nat → Nat → Bytes
  | 0, _ => []
  | count + 1, value => UInt8.ofNat (value / 256 ^ count) :: bigEndianBytes count value

namespace Sha256

def blocks : Nat → Bytes → List Bytes
  | 0, _ => []
  | count + 1, bytes => bytes.take 64 :: blocks count (bytes.drop 64)

/-- The message, its end mark, zeros to a whole block, and its length in bits. -/
def pad (message : Bytes) : Bytes :=
  let zeros := (119 - message.length % 64) % 64
  message ++ [0x80] ++ List.replicate zeros 0 ++ bigEndianBytes 8 (message.length * 8)

end Sha256

open Sha256 in
def sha256 (message : Bytes) : Bytes :=
  let padded := pad message
  let final := (blocks (padded.length / 64) padded).foldl compress start
  [final.a, final.b, final.c, final.d, final.e, final.f, final.g, final.h].flatMap fun word =>
    bigEndianBytes 4 word.toNat

example : (sha256 [0x61, 0x62, 0x63]).take 4 = [0xba, 0x78, 0x16, 0xbf] := by decide +kernel

/-! ## Numbers as bytes -/

theorem bigEndianBytes_length (count value : Nat) : (bigEndianBytes count value).length = count := by
  induction count with
  | zero => rfl
  | succ count ih => rw [bigEndianBytes, List.length_cons, ih]

/-- Numbers that fit are apart as bytes. -/
theorem bigEndianBytes_injective {count first second : Nat} (firstFits : first < 256 ^ count)
    (secondFits : second < 256 ^ count)
    (same : bigEndianBytes count first = bigEndianBytes count second) : first = second := by
  have digits : ∀ count, bigEndianBytes count first = bigEndianBytes count second →
      first % 256 ^ count = second % 256 ^ count := by
    intro count
    induction count with
    | zero => simp [Nat.mod_one]
    | succ count ih =>
        intro same
        obtain ⟨head, tail⟩ := List.cons.inj same
        have lower := ih tail
        have upper : first / 256 ^ count % 256 = second / 256 ^ count % 256 := by
          simpa using congrArg UInt8.toNat head
        rw [Nat.pow_succ, Nat.mod_mul, Nat.mod_mul, lower, upper]
  have low := digits count same
  rwa [Nat.mod_eq_of_lt firstFits, Nat.mod_eq_of_lt secondFits] at low

end Ccrc.Library
