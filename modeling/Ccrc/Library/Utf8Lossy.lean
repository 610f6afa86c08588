import Ccrc.Library.Utf8

/-! The reader of UTF-8 that refuses nothing: each maximal part of a sequence that no
text is written as is read as one U+FFFD. -/

set_option autoImplicit false

namespace Ccrc.Library

namespace Utf8

open Json (isHighSurrogate isLowSurrogate isSurrogate)

/-- The second byte of a sequence: neither a longer spelling than is due, nor a
surrogate, nor past the last code point. -/
def follows (lead second : UInt8) : Bool :=
  isTail second && (lead.toNat != 0xE0 || 0xA0 ≤ second.toNat) &&
    (lead.toNat != 0xED || second.toNat < 0xA0) && (lead.toNat != 0xF0 || 0x90 ≤ second.toNat) &&
    (lead.toNat != 0xF4 || second.toNat < 0x90)

def replacement : UInt16 := 0xFFFD

/-- `buffer.toString('utf8')`. -/
def decodeLossy : Bytes → Text
  | [] => []
  | a :: rest =>
      if a.toNat < 0x80 then UInt16.ofNat a.toNat :: decodeLossy rest
      else if a.toNat < 0xC2 ∨ 0xF5 ≤ a.toNat then replacement :: decodeLossy rest
      else match rest with
        | [] => [replacement]
        | b :: rest =>
            if ¬follows a b then replacement :: decodeLossy (b :: rest)
            else if a.toNat < 0xE0 then
              UInt16.ofNat ((a.toNat - 0xC0) * 64 + (b.toNat - 0x80)) :: decodeLossy rest
            else match rest with
              | [] => [replacement]
              | c :: rest =>
                  if ¬isTail c then replacement :: decodeLossy (c :: rest)
                  else if a.toNat < 0xF0 then
                    UInt16.ofNat ((a.toNat - 0xE0) * 0x1000 + (b.toNat - 0x80) * 64 +
                      (c.toNat - 0x80)) :: decodeLossy rest
                  else match rest with
                    | [] => [replacement]
                    | d :: rest =>
                        if ¬isTail d then replacement :: decodeLossy (d :: rest)
                        else
                          let value := (a.toNat - 0xF0) * 0x40000 + (b.toNat - 0x80) * 0x1000 +
                            (c.toNat - 0x80) * 64 + (d.toNat - 0x80)
                          UInt16.ofNat (0xD800 + (value - 0x10000) / 0x400) ::
                            UInt16.ofNat (0xDC00 + (value - 0x10000) % 0x400) :: decodeLossy rest

theorem isTail_ascii {byte : UInt8} (ascii : byte.toNat < 0x80) : isTail byte = false := by
  simp [isTail]
  omega

theorem follows_ascii (lead : UInt8) {byte : UInt8} (ascii : byte.toNat < 0x80) :
    follows lead byte = false := by
  simp [follows, isTail_ascii ascii]

/-- No sequence reaches over a byte of ASCII. -/
theorem decodeLossy_ascii {c : UInt8} (ascii : c.toNat < 0x80) (before rest : Bytes) :
    decodeLossy (before ++ c :: rest) =
      decodeLossy before ++ UInt16.ofNat c.toNat :: decodeLossy rest := by
  have one : ∀ rest, decodeLossy (c :: rest) = UInt16.ofNat c.toNat :: decodeLossy rest := by
    intro rest
    rw [decodeLossy.eq_def]
    dsimp only
    rw [if_pos ascii]
  have notFollows := fun lead => follows_ascii lead ascii
  have notTail := isTail_ascii ascii
  induction before using decodeLossy.induct with
  | case1 => simp [one, decodeLossy]
  | case2 a rest small ih =>
      rw [List.cons_append, decodeLossy.eq_def, decodeLossy.eq_def (a :: rest)]
      simp [small, ih]
  | case3 a rest large bad ih =>
      rw [List.cons_append, decodeLossy.eq_def, decodeLossy.eq_def (a :: rest)]
      simp [large, bad, ih]
  | case4 a large lead =>
      rw [List.singleton_append, decodeLossy.eq_def, decodeLossy.eq_def [a]]
      simp [large, lead, notFollows, one]
  | case5 a large lead b rest cut ih =>
      rw [List.cons_append] at ih
      rw [List.cons_append, List.cons_append, decodeLossy.eq_def, decodeLossy.eq_def (a :: b :: rest)]
      simp [large, lead, cut, ih]
  | case6 a large lead b rest second two ih =>
      rw [List.cons_append, List.cons_append, decodeLossy.eq_def, decodeLossy.eq_def (a :: b :: rest)]
      simp [large, lead, not_not.mp second, two, ih]
  | case7 a large lead b second more =>
      rw [List.cons_append, List.singleton_append, decodeLossy.eq_def, decodeLossy.eq_def [a, b]]
      simp [large, lead, not_not.mp second, more, notTail, one]
  | case8 a large lead b second more c rest cut ih =>
      rw [List.cons_append] at ih
      rw [List.cons_append, List.cons_append, List.cons_append, decodeLossy.eq_def,
        decodeLossy.eq_def (a :: b :: c :: rest)]
      simp [large, lead, not_not.mp second, more, cut, ih]
  | case9 a large lead b second more c rest third three ih =>
      rw [List.cons_append, List.cons_append, List.cons_append, decodeLossy.eq_def,
        decodeLossy.eq_def (a :: b :: c :: rest)]
      simp [large, lead, not_not.mp second, more, not_not.mp third, three, ih]
  | case10 a large lead b second more c third four =>
      rw [List.cons_append, List.cons_append, List.singleton_append, decodeLossy.eq_def,
        decodeLossy.eq_def [a, b, c]]
      simp [large, lead, not_not.mp second, more, not_not.mp third, four, notTail, one]
  | case11 a large lead b second more c third four d rest cut ih =>
      rw [List.cons_append] at ih
      rw [List.cons_append, List.cons_append, List.cons_append, List.cons_append,
        decodeLossy.eq_def, decodeLossy.eq_def (a :: b :: c :: d :: rest)]
      simp [large, lead, not_not.mp second, more, not_not.mp third, four, cut, ih]
  | case12 a large lead b second more c third four d rest fourth ih =>
      rw [List.cons_append, List.cons_append, List.cons_append, List.cons_append,
        decodeLossy.eq_def, decodeLossy.eq_def (a :: b :: c :: d :: rest)]
      simp [large, lead, not_not.mp second, more, not_not.mp third, four, not_not.mp fourth, ih]

/-- What the fatal reader takes is read the same. -/
theorem decodeLossy_of_decode {bytes : Bytes} {text : Text} (read : decode bytes = some text) :
    decodeLossy bytes = text := by
  induction bytes using decode.induct generalizing text with
  | case1 =>
      rw [decode, Option.some.injEq] at read
      rw [← read, decodeLossy]
  | case2 a rest small ih =>
      rw [decode.eq_def] at read
      simp only [small, if_true, Option.map_eq_some_iff] at read
      obtain ⟨later, isLater, rfl⟩ := read
      rw [decodeLossy.eq_def]
      simp [small, ih isLater]
  | case4 a large lead two b rest second ih =>
      rw [decode.eq_def] at read
      simp only [large, lead, two, second, if_true, if_false, Option.map_eq_some_iff] at read
      obtain ⟨later, isLater, rfl⟩ := read
      have followed : follows a b = true := by
        simp [follows, second]
        omega
      rw [decodeLossy.eq_def]
      simp [large, show ¬(a.toNat < 194 ∨ 245 ≤ a.toNat) by omega, followed, two, ih isLater]
  | case7 a large lead more three b c rest value valid =>
      rename_i ih
      obtain ⟨second, third, least, apart⟩ := valid
      rw [decode.eq_def] at read
      simp only [large, lead, more, three, if_true, if_false] at read
      rw [if_pos ⟨second, third, least, apart⟩, Option.map_eq_some_iff] at read
      obtain ⟨later, isLater, rfl⟩ := read
      have followed : follows a b = true := by
        have tail := second
        have other := third
        simp only [isTail, Bool.and_eq_true, decide_eq_true_eq] at tail other
        simp [follows, second]
        omega
      rw [decodeLossy.eq_def]
      simp [large, show ¬(a.toNat < 194 ∨ 245 ≤ a.toNat) by omega, followed, more, third, three,
        ih isLater]
  | case10 a large lead more four within b c d rest value valid =>
      rename_i ih
      obtain ⟨second, third, fourth, least, most⟩ := valid
      rw [decode.eq_def] at read
      simp only [large, lead, more, four, within, if_true, if_false] at read
      rw [if_pos ⟨second, third, fourth, least, most⟩, Option.map_eq_some_iff] at read
      obtain ⟨later, isLater, rfl⟩ := read
      have followed : follows a b = true := by
        have tail := second
        have next := third
        have last := fourth
        simp only [isTail, Bool.and_eq_true, decide_eq_true_eq] at tail next last
        simp [follows, second]
        omega
      rw [decodeLossy.eq_def]
      simp [large, show ¬(a.toNat < 194 ∨ 245 ≤ a.toNat) by omega, followed, more, third, four,
        fourth, ih isLater]
  | case3 a rest large bad =>
      rw [decode.eq_def] at read
      simp [large, bad] at read
  | case5 a large lead two b rest cut =>
      rw [decode.eq_def] at read
      simp [large, lead, two, cut] at read
  | case6 a large lead two =>
      rw [decode.eq_def] at read
      simp [large, lead, two] at read
  | case8 a large lead more three b c rest value =>
      rename_i bad
      rw [decode.eq_def] at read
      simp only [large, lead, more, three, if_true, if_false] at read
      rw [if_neg bad] at read
      cases read
  | case9 a rest large lead more three short =>
      rw [decode.eq_def] at read
      simp only [large, lead, more, three, if_true, if_false] at read
      cases read
  | case11 a large lead more four within b c d rest value =>
      rename_i bad
      rw [decode.eq_def] at read
      simp only [large, lead, more, four, within, if_true, if_false] at read
      rw [if_neg bad] at read
      cases read
  | case12 a rest large lead more four within short =>
      rw [decode.eq_def] at read
      simp only [large, lead, more, four, within, if_true, if_false] at read
      cases read
  | case13 a rest large lead more four past =>
      rw [decode.eq_def] at read
      simp [large, lead, more, four, past] at read

theorem decodeLossy_encode {text : Text} (wellFormed : isWellFormed text = true) :
    decodeLossy (encode text) = text :=
  decodeLossy_of_decode (decode_encode wellFormed)

/-- A cut sequence, a surrogate and a byte past the last lead are each replaced. -/
example : decodeLossy [0x61, 0xE2, 0x82, 0x62, 0xED, 0xA0, 0x80, 0xFF] =
    [0x61, 0xFFFD, 0x62, 0xFFFD, 0xFFFD, 0xFFFD, 0xFFFD] := by
  decide

end Utf8

end Ccrc.Library
