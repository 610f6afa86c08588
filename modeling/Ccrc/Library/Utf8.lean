import Ccrc.Library.Json

/-! UTF-8 between texts and bytes. A writer replaces an unpaired surrogate, a fatal
reader refuses every sequence that no text is written as. -/

set_option autoImplicit false

namespace Ccrc.Library

abbrev Bytes : Type := List UInt8

namespace Utf8

open Json (isHighSurrogate isLowSurrogate isSurrogate)

def isTail (byte : UInt8) : Bool := 0x80 ≤ byte.toNat && byte.toNat < 0xC0

def tail (value : Nat) : UInt8 := UInt8.ofNat (0x80 + value % 64)

/-- The code point of a surrogate pair. -/
def pairValue (high low : UInt16) : Nat :=
  0x10000 + (high.toNat - 0xD800) * 0x400 + (low.toNat - 0xDC00)

def encodePair (value : Nat) : Bytes :=
  [UInt8.ofNat (0xF0 + value / 0x40000), tail (value / 0x1000), tail (value / 64), tail value]

/-- The bytes of a unit that is no half of a pair. -/
def encodeUnit (c : UInt16) : Bytes :=
  if c.toNat < 0x80 then [UInt8.ofNat c.toNat]
  else if c.toNat < 0x800 then [UInt8.ofNat (0xC0 + c.toNat / 64), tail c.toNat]
  else [UInt8.ofNat (0xE0 + c.toNat / 0x1000), tail (c.toNat / 64), tail c.toNat]

/-- A unit that is not in a pair: a surrogate there is written as U+FFFD. -/
def encodeAlone (c : UInt16) : Bytes :=
  if isSurrogate c then encodeUnit 0xFFFD else encodeUnit c

/-- `Buffer.from(text, 'utf8')`. -/
def encode : Text → Bytes
  | [] => []
  | [c] => encodeAlone c
  | c :: d :: rest =>
      if isHighSurrogate c && isLowSurrogate d then encodePair (pairValue c d) ++ encode rest
      else encodeAlone c ++ encode (d :: rest)

/-- Every surrogate stands in a pair. -/
def isWellFormed : Text → Bool
  | [] => true
  | [c] => !isSurrogate c
  | c :: d :: rest =>
      if isHighSurrogate c && isLowSurrogate d then isWellFormed rest
      else !isSurrogate c && isWellFormed (d :: rest)

/-- The fatal reader, which keeps a byte-order mark. -/
def decode : Bytes → Option Text
  | [] => some []
  | a :: rest =>
      if a.toNat < 0x80 then (decode rest).map (UInt16.ofNat a.toNat :: ·)
      else if a.toNat < 0xC2 then none
      else if a.toNat < 0xE0 then
        match rest with
        | b :: rest =>
            if isTail b then
              (decode rest).map
                (UInt16.ofNat ((a.toNat - 0xC0) * 64 + (b.toNat - 0x80)) :: ·)
            else none
        | [] => none
      else if a.toNat < 0xF0 then
        match rest with
        | b :: c :: rest =>
            let value := (a.toNat - 0xE0) * 0x1000 + (b.toNat - 0x80) * 64 + (c.toNat - 0x80)
            if isTail b ∧ isTail c ∧ 0x800 ≤ value ∧ ¬(0xD800 ≤ value ∧ value ≤ 0xDFFF) then
              (decode rest).map (UInt16.ofNat value :: ·)
            else none
        | _ => none
      else if a.toNat < 0xF5 then
        match rest with
        | b :: c :: d :: rest =>
            let value := (a.toNat - 0xF0) * 0x40000 + (b.toNat - 0x80) * 0x1000 +
              (c.toNat - 0x80) * 64 + (d.toNat - 0x80)
            if isTail b ∧ isTail c ∧ isTail d ∧ 0x10000 ≤ value ∧ value ≤ 0x10FFFF then
              (decode rest).map fun text =>
                UInt16.ofNat (0xD800 + (value - 0x10000) / 0x400) ::
                  UInt16.ofNat (0xDC00 + (value - 0x10000) % 0x400) :: text
            else none
        | _ => none
      else none

/-! ## The round trip -/

theorem toNat_tail (value : Nat) : (tail value).toNat = 0x80 + value % 64 := by
  simp [tail]
  omega

theorem isTail_tail (value : Nat) : isTail (tail value) = true := by
  have small := Nat.mod_lt value (show 0 < 64 by decide)
  simp only [isTail, toNat_tail, Bool.and_eq_true, decide_eq_true_eq]
  omega

theorem toNat_ofNat_small (value : Nat) (small : value < 256) :
    (UInt8.ofNat value).toNat = value := by
  simp
  omega

theorem surrogate_bounds {c : UInt16} :
    (isHighSurrogate c = true ↔ 0xD800 ≤ c.toNat ∧ c.toNat ≤ 0xDBFF) ∧
      (isLowSurrogate c = true ↔ 0xDC00 ≤ c.toNat ∧ c.toNat ≤ 0xDFFF) ∧
      (isSurrogate c = true ↔ 0xD800 ≤ c.toNat ∧ c.toNat ≤ 0xDFFF) := by
  simp [isHighSurrogate, isLowSurrogate, isSurrogate, UInt16.le_iff_toNat_le]

theorem decode_encodeUnit {c : UInt16} (alone : isSurrogate c = false) (rest : Bytes) :
    decode (encodeUnit c ++ rest) = (decode rest).map (c :: ·) := by
  have bound := c.toNat_lt
  have apart : ¬(0xD800 ≤ c.toNat ∧ c.toNat ≤ 0xDFFF) :=
    mt surrogate_bounds.2.2.mpr (Bool.eq_false_iff.mp alone)
  unfold encodeUnit
  split
  next small =>
      have lead := toNat_ofNat_small c.toNat (by omega)
      rw [List.singleton_append, decode.eq_def]
      dsimp only
      rw [lead, if_pos small, UInt16.ofNat_toNat]
  next =>
      split
      next =>
          have lead := toNat_ofNat_small (0xC0 + c.toNat / 64) (by omega)
          have value : (0xC0 + c.toNat / 64 - 0xC0) * 64 + (0x80 + c.toNat % 64 - 0x80) =
              c.toNat := by omega
          rw [List.cons_append, List.singleton_append, decode.eq_def]
          dsimp only
          rw [lead, if_neg (by omega), if_neg (by omega), if_pos (by omega)]
          simp only [isTail_tail, if_true, toNat_tail, value, UInt16.ofNat_toNat]
      next =>
          have lead := toNat_ofNat_small (0xE0 + c.toNat / 0x1000) (by omega)
          have value : (0xE0 + c.toNat / 0x1000 - 0xE0) * 0x1000 +
              (0x80 + c.toNat / 64 % 64 - 0x80) * 64 + (0x80 + c.toNat % 64 - 0x80) =
                c.toNat := by omega
          rw [List.cons_append, List.cons_append, List.singleton_append, decode.eq_def]
          dsimp only
          rw [lead, if_neg (by omega), if_neg (by omega), if_neg (by omega), if_pos (by omega)]
          simp only [isTail_tail, toNat_tail, value, UInt16.ofNat_toNat]
          rw [if_pos ⟨trivial, trivial, by omega, apart⟩]

theorem decode_encodePair {c d : UInt16} (high : isHighSurrogate c = true)
    (low : isLowSurrogate d = true) (rest : Bytes) :
    decode (encodePair (pairValue c d) ++ rest) = (decode rest).map fun text => c :: d :: text := by
  have ofHigh := surrogate_bounds.1.mp high
  have ofLow := surrogate_bounds.2.1.mp low
  have split : ∃ point, pairValue c d = 0x10000 + point ∧ point / 0x400 = c.toNat - 0xD800 ∧
      point % 0x400 = d.toNat - 0xDC00 ∧ point < 0x100000 :=
    ⟨(c.toNat - 0xD800) * 0x400 + (d.toNat - 0xDC00), by unfold pairValue; omega, by omega,
      by omega, by omega⟩
  obtain ⟨point, isValue, upper, lower, small⟩ := split
  rw [isValue]
  have lead := toNat_ofNat_small (0xF0 + (0x10000 + point) / 0x40000) (by omega)
  have value : (0xF0 + (0x10000 + point) / 0x40000 - 0xF0) * 0x40000 +
      (0x80 + (0x10000 + point) / 0x1000 % 64 - 0x80) * 0x1000 +
      (0x80 + (0x10000 + point) / 64 % 64 - 0x80) * 64 +
      (0x80 + (0x10000 + point) % 64 - 0x80) = 0x10000 + point := by omega
  rw [encodePair, List.cons_append, List.cons_append, List.cons_append, List.singleton_append,
    decode.eq_def]
  dsimp only
  rw [lead, if_neg (by omega), if_neg (by omega), if_neg (by omega), if_neg (by omega),
    if_pos (by omega)]
  simp only [isTail_tail, toNat_tail, value]
  rw [if_pos ⟨trivial, trivial, trivial, by omega, by omega⟩]
  have first : 0xD800 + (0x10000 + point - 0x10000) / 0x400 = c.toNat := by omega
  have second : 0xDC00 + (0x10000 + point - 0x10000) % 0x400 = d.toNat := by omega
  simp only [first, second, UInt16.ofNat_toNat]

theorem decode_encodeAlone {c : UInt16} (alone : isSurrogate c = false) (rest : Bytes) :
    decode (encodeAlone c ++ rest) = (decode rest).map (c :: ·) := by
  rw [encodeAlone, if_neg (Bool.eq_false_iff.mp alone), decode_encodeUnit alone]

/-- A text without unpaired surrogates is read back from its bytes. -/
theorem decode_encode {text : Text} (wellFormed : isWellFormed text = true) :
    decode (encode text) = some text := by
  induction text using encode.induct with
  | case1 => rw [encode, decode]
  | case2 c =>
      have alone : isSurrogate c = false := by simpa [isWellFormed] using wellFormed
      have read := decode_encodeAlone alone []
      rwa [List.append_nil, decode] at read
  | case3 c d rest paired ih =>
      rw [isWellFormed, if_pos paired] at wellFormed
      rw [Bool.and_eq_true] at paired
      rw [encode, if_pos (by simp [paired]), decode_encodePair paired.1 paired.2, ih wellFormed,
        Option.map_some]
  | case4 c d rest unpaired ih =>
      rw [isWellFormed, if_neg unpaired, Bool.and_eq_true, Bool.not_eq_true'] at wellFormed
      rw [encode, if_neg unpaired, decode_encodeAlone wellFormed.1, ih wellFormed.2,
        Option.map_some]

theorem encode_injective {first second : Text} (firstFormed : isWellFormed first = true)
    (secondFormed : isWellFormed second = true) (same : encode first = encode second) :
    first = second := by
  have read := congrArg decode same
  rw [decode_encode firstFormed, decode_encode secondFormed] at read
  exact Option.some.inj read

end Utf8

end Ccrc.Library
