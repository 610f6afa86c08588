import Ccrc.Library.Utf8Lossy

/-! Where a byte sequence is cut: between two characters the two sides are read on their
own, and a character that is cut is a replacement on either side. -/

set_option autoImplicit false

namespace Ccrc.Library

namespace Utf8

/-- The two sides are read on their own, or a character was cut between them. -/
def CutAt (before after : Bytes) : Prop :=
  decodeLossy (before ++ after) = decodeLossy before ++ decodeLossy after ∨
    (∃ front, decodeLossy before = front ++ [replacement]) ∧
      ∃ behind, decodeLossy after = replacement :: behind

theorem isTail_bounds {byte : UInt8} (isTailByte : isTail byte = true) :
    0x80 ≤ byte.toNat ∧ byte.toNat < 0xC0 := by
  simpa [isTail] using isTailByte

/-- A sequence does not start at a tail. -/
theorem decodeLossy_tail {byte : UInt8} (isTailByte : isTail byte = true) (rest : Bytes) :
    decodeLossy (byte :: rest) = replacement :: decodeLossy rest := by
  obtain ⟨lower, upper⟩ := isTail_bounds isTailByte
  rw [decodeLossy.eq_def]
  dsimp only
  rw [if_neg (by omega), if_pos (by omega)]

theorem isTail_of_follows {lead second : UInt8} (second' : follows lead second = true) :
    isTail second = true := by
  simp only [follows, Bool.and_eq_true] at second'
  exact second'.1.1.1.1

/-- One unit in front of both sides. -/
theorem CutAt.cons (lead : Bytes) (units : Text) {before after : Bytes}
    (whole : decodeLossy (lead ++ (before ++ after)) = units ++ decodeLossy (before ++ after))
    (alone : decodeLossy (lead ++ before) = units ++ decodeLossy before)
    (cut : CutAt before after) : CutAt (lead ++ before) after := by
  rcases cut with split | ⟨⟨front, isFront⟩, behind⟩
  · left
    rw [List.append_assoc, whole, alone, split, List.append_assoc]
  · right
    exact ⟨⟨units ++ front, by rw [alone, isFront, List.append_assoc]⟩, behind⟩

/-- The pair that a sequence of four bytes is read as. -/
def fourByteUnits (a b c d : UInt8) : Text :=
  let value := (a.toNat - 0xF0) * 0x40000 + (b.toNat - 0x80) * 0x1000 +
    (c.toNat - 0x80) * 64 + (d.toNat - 0x80)
  [UInt16.ofNat (0xD800 + (value - 0x10000) / 0x400),
    UInt16.ofNat (0xDC00 + (value - 0x10000) % 0x400)]

theorem decodeLossy_cut (before after : Bytes) : CutAt before after := by
  induction before using decodeLossy.induct with
  | case1 => exact .inl rfl
  | case2 a rest small ih =>
      refine CutAt.cons [a] ([UInt16.ofNat a.toNat]) ?_ ?_ ih
      all_goals
        rw [List.singleton_append, decodeLossy.eq_def]
        simp [small]
  | case3 a rest large bad ih =>
      refine CutAt.cons [a] ([replacement]) ?_ ?_ ih
      all_goals
        rw [List.singleton_append, decodeLossy.eq_def]
        simp [large, bad]
  | case4 a large lead =>
      have alone : decodeLossy [a] = [replacement] := by
        rw [decodeLossy.eq_def]
        simp [large, lead]
      cases after with
      | nil => exact .inl (by simp [decodeLossy])
      | cons b rest =>
          by_cases second : follows a b = true
          · exact .inr ⟨⟨[], alone⟩, _, decodeLossy_tail (isTail_of_follows second) rest⟩
          · left
            rw [List.singleton_append, decodeLossy.eq_def, alone]
            simp [large, lead, second]
  | case5 a large lead b rest cut ih =>
      refine CutAt.cons [a] ([replacement]) ?_ ?_ ih
      all_goals
        rw [List.singleton_append, List.cons_append, decodeLossy.eq_def]
        simp [large, lead, cut]
  | case6 a large lead b rest second two ih =>
      refine CutAt.cons [a, b] ([UInt16.ofNat ((a.toNat - 0xC0) * 64 + (b.toNat - 0x80))]) ?_ ?_ ih
      all_goals
        rw [List.cons_append, List.singleton_append, decodeLossy.eq_def]
        simp [large, lead, not_not.mp second, two]
  | case7 a large lead b second more =>
      have alone : decodeLossy [a, b] = [replacement] := by
        rw [decodeLossy.eq_def]
        simp [large, lead, not_not.mp second, more]
      cases after with
      | nil => exact .inl (by simp [decodeLossy])
      | cons c rest =>
          by_cases third : isTail c = true
          · exact .inr ⟨⟨[], alone⟩, _, decodeLossy_tail third rest⟩
          · left
            rw [List.cons_append, List.singleton_append, decodeLossy.eq_def, alone]
            simp [large, lead, not_not.mp second, more, third]
  | case8 a large lead b second more c rest cut ih =>
      refine CutAt.cons [a, b] ([replacement]) ?_ ?_ ih
      all_goals
        rw [List.cons_append, List.singleton_append, List.cons_append, decodeLossy.eq_def]
        simp [large, lead, not_not.mp second, more, cut]
  | case9 a large lead b second more c rest third three ih =>
      refine CutAt.cons [a, b, c] ([UInt16.ofNat ((a.toNat - 0xE0) * 0x1000 +
        (b.toNat - 0x80) * 64 + (c.toNat - 0x80))]) ?_ ?_ ih
      all_goals
        rw [List.cons_append, List.cons_append, List.singleton_append, decodeLossy.eq_def]
        simp [large, lead, not_not.mp second, more, not_not.mp third, three]
  | case10 a large lead b second more c third four =>
      have alone : decodeLossy [a, b, c] = [replacement] := by
        rw [decodeLossy.eq_def]
        simp [large, lead, not_not.mp second, more, not_not.mp third, four]
      cases after with
      | nil => exact .inl (by simp [decodeLossy])
      | cons d rest =>
          by_cases fourth : isTail d = true
          · exact .inr ⟨⟨[], alone⟩, _, decodeLossy_tail fourth rest⟩
          · left
            rw [List.cons_append, List.cons_append, List.singleton_append, decodeLossy.eq_def,
              alone]
            simp [large, lead, not_not.mp second, more, not_not.mp third, four, fourth]
  | case11 a large lead b second more c third four d rest cut ih =>
      refine CutAt.cons [a, b, c] ([replacement]) ?_ ?_ ih
      all_goals
        rw [List.cons_append, List.cons_append, List.singleton_append, List.cons_append,
          decodeLossy.eq_def]
        simp [large, lead, not_not.mp second, more, not_not.mp third, four, cut]
  | case12 a large lead b second more c third four d rest fourth ih =>
      refine CutAt.cons [a, b, c, d] (fourByteUnits a b c d) ?_ ?_ ih
      all_goals
        rw [List.cons_append, List.cons_append, List.cons_append, List.singleton_append,
          decodeLossy.eq_def]
        simp [large, lead, not_not.mp second, more, not_not.mp third, four, not_not.mp fourth,
          fourByteUnits]

theorem toNat_ofNat_unit {value : Nat} (small : value < 65536) :
    (UInt16.ofNat value).toNat = value := by
  rw [UInt16.toNat_ofNat', Nat.mod_eq_of_lt small]

/-- A unit of ASCII is read of its own byte only. -/
theorem ascii_of_decodeLossy {bytes : Bytes} {c : UInt16} (member : c ∈ decodeLossy bytes)
    (ascii : c.toNat < 0x80) : UInt8.ofNat c.toNat ∈ bytes := by
  have notReplaced : c ≠ replacement := by
    rintro rfl
    exact absurd ascii (by decide)
  induction bytes using decodeLossy.induct with
  | case1 => simp [decodeLossy] at member
  | case2 a rest small ih =>
      rw [decodeLossy.eq_def] at member
      simp only [small, if_true, List.mem_cons] at member
      rcases member with rfl | later
      · rw [toNat_ofNat_unit (by omega), UInt8.ofNat_toNat]
        exact List.mem_cons_self
      · exact List.mem_cons_of_mem _ (ih later)
  | case3 a rest large bad ih =>
      rw [decodeLossy.eq_def] at member
      simp only [large, bad, if_true, if_false, List.mem_cons, notReplaced, false_or] at member
      exact List.mem_cons_of_mem _ (ih member)
  | case4 a large lead =>
      rw [decodeLossy.eq_def] at member
      simp [large, lead, notReplaced] at member
  | case5 a large lead b rest cut ih =>
      rw [decodeLossy.eq_def] at member
      simp [large, lead, cut, notReplaced] at member
      exact List.mem_cons_of_mem _ (ih member)
  | case6 a large lead b rest second two ih =>
      rw [decodeLossy.eq_def] at member
      simp only [large, lead, not_not.mp second, two, if_true, if_false, not_true_eq_false,
        List.mem_cons] at member
      rcases member with rfl | later
      · obtain ⟨lower, upper⟩ := isTail_bounds (isTail_of_follows (not_not.mp second))
        rw [toNat_ofNat_unit (by omega)] at ascii
        omega
      · exact List.mem_cons_of_mem _ (List.mem_cons_of_mem _ (ih later))
  | case7 a large lead b second more =>
      rw [decodeLossy.eq_def] at member
      simp [large, lead, not_not.mp second, more, notReplaced] at member
  | case8 a large lead b second more c' rest cut ih =>
      rw [decodeLossy.eq_def] at member
      simp [large, lead, not_not.mp second, more, cut, notReplaced] at member
      exact List.mem_cons_of_mem _ (List.mem_cons_of_mem _ (ih member))
  | case9 a large lead b second more c' rest third three ih =>
      rw [decodeLossy.eq_def] at member
      simp only [large, lead, not_not.mp second, more, not_not.mp third, three, if_true, if_false,
        not_true_eq_false, List.mem_cons] at member
      rcases member with rfl | later
      · have followed := not_not.mp second
        obtain ⟨lower, upper⟩ := isTail_bounds (isTail_of_follows followed)
        obtain ⟨lower', upper'⟩ := isTail_bounds (not_not.mp third)
        simp only [follows, Bool.and_eq_true, Bool.or_eq_true, bne_iff_ne, decide_eq_true_eq]
          at followed
        rw [toNat_ofNat_unit (by omega)] at ascii
        omega
      · exact List.mem_cons_of_mem _ (List.mem_cons_of_mem _ (List.mem_cons_of_mem _ (ih later)))
  | case10 a large lead b second more c' third four =>
      rw [decodeLossy.eq_def] at member
      simp [large, lead, not_not.mp second, more, not_not.mp third, four, notReplaced] at member
  | case11 a large lead b second more c' third four d rest cut ih =>
      rw [decodeLossy.eq_def] at member
      simp [large, lead, not_not.mp second, more, not_not.mp third, four, cut, notReplaced] at member
      exact List.mem_cons_of_mem _ (List.mem_cons_of_mem _ (List.mem_cons_of_mem _ (ih member)))
  | case12 a large lead b second more c' third four d rest fourth ih =>
      rw [decodeLossy.eq_def] at member
      simp only [large, lead, not_not.mp second, more, not_not.mp third, four, not_not.mp fourth,
        if_false, not_true_eq_false, List.mem_cons] at member
      have followed := not_not.mp second
      obtain ⟨lower, upper⟩ := isTail_bounds (isTail_of_follows followed)
      obtain ⟨lower', upper'⟩ := isTail_bounds (not_not.mp third)
      obtain ⟨lower'', upper''⟩ := isTail_bounds (not_not.mp fourth)
      simp only [follows, Bool.and_eq_true, Bool.or_eq_true, bne_iff_ne, decide_eq_true_eq]
        at followed
      rcases member with rfl | rfl | later
      · rw [toNat_ofNat_unit (by omega)] at ascii
        omega
      · rw [toNat_ofNat_unit (by omega)] at ascii
        omega
      · exact List.mem_cons_of_mem _ (List.mem_cons_of_mem _ (List.mem_cons_of_mem _
          (List.mem_cons_of_mem _ (ih later))))

/-- Behind what the fatal reader takes, it reads on as from the start. -/
theorem decode_append {before : Bytes} {text : Text} (read : decode before = some text)
    (after : Bytes) : decode (before ++ after) = (decode after).map (text ++ ·) := by
  have joined (units : Text) (later : Text) (rest : Option Text) :
      (rest.map (later ++ ·)).map (units ++ ·) = rest.map ((units ++ later) ++ ·) := by
    cases rest <;> simp
  induction before using decode.induct generalizing text with
  | case1 =>
      rw [decode, Option.some.injEq] at read
      simp [← read]
  | case2 a rest small ih =>
      rw [decode.eq_def] at read
      simp only [small, if_true, Option.map_eq_some_iff] at read
      obtain ⟨later, isLater, rfl⟩ := read
      rw [List.cons_append, decode.eq_def]
      simp only [small, if_true, ih isLater]
      exact joined [_] later _
  | case4 a large lead two b rest second ih =>
      rw [decode.eq_def] at read
      simp only [large, lead, two, second, if_true, if_false, Option.map_eq_some_iff] at read
      obtain ⟨later, isLater, rfl⟩ := read
      rw [List.cons_append, List.cons_append, decode.eq_def]
      simp only [large, lead, two, second, if_true, if_false, ih isLater]
      exact joined [_] later _
  | case7 a large lead more three b c rest value valid =>
      rename_i ih
      rw [decode.eq_def] at read
      simp only [large, lead, more, three, if_true, if_false] at read
      rw [if_pos valid, Option.map_eq_some_iff] at read
      obtain ⟨later, isLater, rfl⟩ := read
      rw [List.cons_append, List.cons_append, List.cons_append, decode.eq_def]
      simp only [large, lead, more, three, if_true, if_false]
      rw [if_pos valid, ih isLater]
      exact joined [_] later _
  | case10 a large lead more four within b c d rest value valid =>
      rename_i ih
      rw [decode.eq_def] at read
      simp only [large, lead, more, four, within, if_true, if_false] at read
      rw [if_pos valid, Option.map_eq_some_iff] at read
      obtain ⟨later, isLater, rfl⟩ := read
      rw [List.cons_append, List.cons_append, List.cons_append, List.cons_append, decode.eq_def]
      simp only [large, lead, more, four, within, if_true, if_false]
      rw [if_pos valid, ih isLater]
      exact joined [_, _] later _
  | case3 a rest large bad =>
      rw [decode.eq_def] at read
      simp [large, bad] at read
  | case5 a large lead two b rest cut =>
      rw [decode.eq_def] at read
      simp [large, lead, two, cut] at read
  | case6 a large lead two =>
      rw [decode.eq_def] at read
      simp [large, lead, two] at read
  | case8 a large lead more three b c rest value =>
      rename_i bad
      rw [decode.eq_def] at read
      simp only [large, lead, more, three, if_true, if_false] at read
      rw [if_neg bad] at read
      cases read
  | case9 a rest large lead more three short =>
      rw [decode.eq_def] at read
      simp only [large, lead, more, three, if_true, if_false] at read
      cases read
  | case11 a large lead more four within b c d rest value =>
      rename_i bad
      rw [decode.eq_def] at read
      simp only [large, lead, more, four, within, if_true, if_false] at read
      rw [if_neg bad] at read
      cases read
  | case12 a rest large lead more four within short =>
      rw [decode.eq_def] at read
      simp only [large, lead, more, four, within, if_true, if_false] at read
      cases read
  | case13 a rest large lead more four past =>
      rw [decode.eq_def] at read
      simp [large, lead, more, four, past] at read

/-- Every byte sequence that is read at all holds a unit. -/
theorem decode_nil {bytes : Bytes} (read : decode bytes = some []) : bytes = [] := by
  cases bytes with
  | nil => rfl
  | cons a rest =>
      rw [decode.eq_def] at read
      dsimp only at read
      repeat' split at read
      all_goals simp at read

/-- A byte of ASCII stands for its own unit. -/
theorem not_mem_encode {text : Text} (formed : isWellFormed text = true) {byte : UInt8}
    (ascii : byte.toNat < 0x80) (free : UInt16.ofNat byte.toNat ∉ text) : byte ∉ encode text := by
  intro member
  obtain ⟨before, rest, split⟩ := List.append_of_mem member
  have read := congrArg decodeLossy split
  rw [decodeLossy_ascii ascii, decodeLossy_encode formed] at read
  exact free (read ▸ List.mem_append_right _ List.mem_cons_self)

end Utf8

end Ccrc.Library
