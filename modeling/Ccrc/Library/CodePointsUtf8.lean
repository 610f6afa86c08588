import Ccrc.Library.CodePoints

/-! Code points from their UTF-8 bytes, and the cuts that Python's strings have. -/

set_option autoImplicit false

namespace Ccrc.Library.Str

open Utf8

/-- `bytes.decode("utf-8")`; none is a `UnicodeDecodeError`. -/
def decode? : Bytes → Option Str
  | [] => some []
  | a :: rest =>
      if a.toNat < 0x80 then (decode? rest).map (Fin.ofNat 0x110000 a.toNat :: ·)
      else if a.toNat < 0xC2 then none
      else if a.toNat < 0xE0 then
        match rest with
        | b :: rest =>
            if isTail b then
              (decode? rest).map
                (Fin.ofNat 0x110000 ((a.toNat - 0xC0) * 64 + (b.toNat - 0x80)) :: ·)
            else none
        | [] => none
      else if a.toNat < 0xF0 then
        match rest with
        | b :: c :: rest =>
            let value := (a.toNat - 0xE0) * 0x1000 + (b.toNat - 0x80) * 64 + (c.toNat - 0x80)
            if isTail b ∧ isTail c ∧ 0x800 ≤ value ∧ ¬(0xD800 ≤ value ∧ value ≤ 0xDFFF) then
              (decode? rest).map (Fin.ofNat 0x110000 value :: ·)
            else none
        | _ => none
      else if a.toNat < 0xF5 then
        match rest with
        | b :: c :: d :: rest =>
            let value := (a.toNat - 0xF0) * 0x40000 + (b.toNat - 0x80) * 0x1000 +
              (c.toNat - 0x80) * 64 + (d.toNat - 0x80)
            if isTail b ∧ isTail c ∧ isTail d ∧ 0x10000 ≤ value ∧ value ≤ 0x10FFFF then
              (decode? rest).map (Fin.ofNat 0x110000 value :: ·)
            else none
        | _ => none
      else none

/-- What stands before and after the first separator; all of it and nothing where there
is none. -/
def partition (separator : CodePoint) (text : Str) : Str × Str :=
  (text.takeWhile (· ≠ separator), (text.dropWhile (· ≠ separator)).drop 1)

/-- `text.strip()`. -/
def strip (text : Str) : Str := (text.dropWhile isSpace).rdropWhile isSpace

/-! ## The round trip -/

theorem decode?_encodePoint {c : CodePoint} (alone : isSurrogate c = false) (rest : Bytes) :
    decode? (encodePoint c ++ rest) = (decode? rest).map (c :: ·) := by
  have bound := c.isLt
  have whole : Fin.ofNat 0x110000 c.val = c := Fin.ofNat_val_eq_self c
  have apart : ¬(0xD800 ≤ c.val ∧ c.val ≤ 0xDFFF) := by
    simpa [isSurrogate] using alone
  unfold encodePoint
  split
  next small =>
      have lead := toNat_ofNat_small c.val (by omega)
      rw [List.singleton_append, decode?.eq_def]
      dsimp only
      rw [lead, if_pos small, whole]
  next =>
      split
      next =>
          have lead := toNat_ofNat_small (0xC0 + c.val / 64) (by omega)
          have value : (0xC0 + c.val / 64 - 0xC0) * 64 + (0x80 + c.val % 64 - 0x80) = c.val := by
            omega
          rw [List.cons_append, List.singleton_append, decode?.eq_def]
          dsimp only
          rw [lead, if_neg (by omega), if_neg (by omega), if_pos (by omega)]
          simp only [isTail_tail, if_true, toNat_tail, value, whole]
      next =>
          split
          next =>
              have lead := toNat_ofNat_small (0xE0 + c.val / 0x1000) (by omega)
              have value : (0xE0 + c.val / 0x1000 - 0xE0) * 0x1000 +
                  (0x80 + c.val / 64 % 64 - 0x80) * 64 + (0x80 + c.val % 64 - 0x80) =
                    c.val := by omega
              rw [List.cons_append, List.cons_append, List.singleton_append, decode?.eq_def]
              dsimp only
              rw [lead, if_neg (by omega), if_neg (by omega), if_neg (by omega), if_pos (by omega)]
              simp only [isTail_tail, toNat_tail, value, whole]
              rw [if_pos ⟨trivial, trivial, by omega, apart⟩]
          next =>
              have lead := toNat_ofNat_small (0xF0 + c.val / 0x40000) (by omega)
              have value : (0xF0 + c.val / 0x40000 - 0xF0) * 0x40000 +
                  (0x80 + c.val / 0x1000 % 64 - 0x80) * 0x1000 +
                  (0x80 + c.val / 64 % 64 - 0x80) * 64 + (0x80 + c.val % 64 - 0x80) =
                    c.val := by omega
              rw [List.cons_append, List.cons_append, List.cons_append, List.singleton_append,
                decode?.eq_def]
              dsimp only
              rw [lead, if_neg (by omega), if_neg (by omega), if_neg (by omega),
                if_neg (by omega), if_pos (by omega)]
              simp only [isTail_tail, toNat_tail, value, whole]
              rw [if_pos ⟨trivial, trivial, trivial, by omega, by omega⟩]

theorem decode?_flatMap {text : Str} (plain : text.any isSurrogate = false) :
    decode? (text.flatMap encodePoint) = some text := by
  induction text with
  | nil => simp [decode?]
  | cons c text ih =>
      rw [List.any_cons, Bool.or_eq_false_iff] at plain
      rw [List.flatMap_cons, decode?_encodePoint plain.1, ih plain.2, Option.map_some]

/-- A text without surrogates is read back from its bytes. -/
theorem decode?_encode? {text : Str} {bytes : Bytes} (encoded : encode? text = some bytes) :
    decode? bytes = some text := by
  rw [encode?, Option.ite_none_left_eq_some, Bool.not_eq_true] at encoded
  rw [← Option.some.inj encoded.2]
  exact decode?_flatMap encoded.1

end Ccrc.Library.Str
