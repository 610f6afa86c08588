import Ccrc.Coord.DelegationIngest

/-! A spool line names its owner, and the preimage of an event's id keeps the bucket,
the place and the digest of the line apart. -/

set_option autoImplicit false

namespace Ccrc.Coord

open Library Shared

/-! ## The line and its owner -/

theorem lineRead_bind {α β : Type} {read : LineRead α} {next : α → LineRead β} {answer : β} :
    (read >>= next) = .ok answer ↔ ∃ value, read = .ok value ∧ next value = .ok answer := by
  cases read with
  | error code => simp [bind, Except.bind]
  | ok value => simp [bind, Except.bind]

theorem oneOf_ok {read : Text} {accepts : Text → Bool} {rejection : DelegationLineRejection}
    {answer : Unit} (taken : oneOf read accepts rejection = .ok answer) : accepts read = true := by
  unfold oneOf at taken
  split at taken
  next accepted => exact accepted
  next => cases taken

theorem readOwner_ok {raw : Json Number} {owner : SpoolOwner} {answer : Unit}
    (read : readOwner raw owner = .ok answer) :
    spoolField raw "sessionId" SpoolValue.string? = .ok owner.sessionId ∧
      spoolField raw "parentIncarnation" SpoolValue.string? = .ok owner.parentIncarnation := by
  simp only [readOwner, lineRead_bind] at read
  obtain ⟨sessionId, isSession, _, session, incarnation, isIncarnation, _, _, bound⟩ := read
  rw [isSession, isIncarnation, ← beq_iff_eq.mp (oneOf_ok session),
    ← beq_iff_eq.mp (oneOf_ok bound)]
  exact ⟨rfl, rfl⟩

/-- A read line names its owner, in the raw line and in what is read of it. -/
theorem readLine_ok {raw : Json Number} {fields : List (Text × Json Number)} {owner : SpoolOwner}
    {line : DelegationSpoolLine} (read : readLine raw fields owner = .ok line) :
    readOwner raw owner = .ok () ∧ line.sessionId = owner.sessionId ∧
      line.parentIncarnation = owner.parentIncarnation := by
  simp only [readLine, lineRead_bind] at read
  obtain ⟨variant, _, _, _, _, _, observedAt, _, _, _, _, named, claudeVersion, _, cwd, _,
    transcriptPath, _, agentId, _, agentType, _, truncated, _, claudeSessionId, _, body, _,
    same⟩ := read
  cases same
  exact ⟨named, rfl, rfl⟩

theorem parseDelegationSpoolLine_ok {rawLine : Bytes} {owner : SpoolOwner}
    {line : DelegationSpoolLine} (read : parseDelegationSpoolLine rawLine owner = .ok line) :
    ∃ textual fields, Utf8.decode rawLine = some textual ∧
      Json.parse textual = some (.object fields) ∧
      readLine (.object fields) fields owner = .ok line := by
  unfold parseDelegationSpoolLine at read
  split at read
  next => cases read
  next =>
      split at read
      next => cases read
      next =>
          split at read
          next => cases read
          next textual decoded =>
              split at read
              next => cases read
              next fields parsed =>
                  split at read
                  next => cases read
                  next =>
                      split at read
                      next => cases read
                      next => exact ⟨textual, fields, decoded, parsed, read⟩
              next => cases read

/-- One raw line is a line of one owner. -/
theorem parseDelegationSpoolLine_owner {rawLine : Bytes} {owner other : SpoolOwner}
    {line otherLine : DelegationSpoolLine}
    (read : parseDelegationSpoolLine rawLine owner = .ok line)
    (again : parseDelegationSpoolLine rawLine other = .ok otherLine) : owner = other := by
  obtain ⟨textual, fields, decoded, parsed, isLine⟩ := parseDelegationSpoolLine_ok read
  obtain ⟨_, _, decodedAgain, parsedAgain, isOther⟩ := parseDelegationSpoolLine_ok again
  cases decoded.symm.trans decodedAgain
  cases parsed.symm.trans parsedAgain
  obtain ⟨session, incarnation⟩ := readOwner_ok (readLine_ok isLine).1
  obtain ⟨otherSession, otherIncarnation⟩ := readOwner_ok (readLine_ok isOther).1
  cases owner
  cases other
  cases session.symm.trans otherSession
  cases incarnation.symm.trans otherIncarnation
  rfl

/-! ## The event id -/

theorem hexDigit_injective : ∀ first < 16, ∀ second < 16,
    Json.hexDigit first = Json.hexDigit second → first = second := by
  decide

theorem hexText_injective {first second : Bytes} (same : hexText first = hexText second) :
    first = second := by
  induction first generalizing second with
  | nil =>
      cases second with
      | nil => rfl
      | cons byte rest => cases same
  | cons byte rest ih =>
      cases second with
      | nil => cases same
      | cons other later =>
          simp only [hexText, List.flatMap_cons, List.cons_append, List.nil_append,
            List.cons.injEq] at same
          obtain ⟨upper, lower, tail⟩ := same
          have byteSmall := byte.toNat_lt
          have otherSmall := other.toNat_lt
          have upperSame := hexDigit_injective _ (by omega) _ (by omega) upper
          have lowerSame := hexDigit_injective _ (by omega) _ (by omega) lower
          have sameByte : byte = other := UInt8.toNat_inj.mp (by omega)
          rw [sameByte, ih tail]

theorem sha256_length (message : Bytes) : (sha256 message).length = 32 := by
  simp [sha256, bigEndianBytes_length]

theorem encode_digits {text : Text} (digits : text.all Text.isDigit = true) :
    Utf8.isWellFormed text = true ∧ (Utf8.encode text).length = text.length := by
  have unit : ∀ c : UInt16, Text.isDigit c = true → Json.isSurrogate c = false ∧
      Json.isHighSurrogate c = false ∧ (Utf8.encodeAlone c).length = 1 := by
    intro c digit
    have small : c.toNat < 0x80 := by
      simp [Text.isDigit, Text.unit, UInt16.le_iff_toNat_le] at digit
      omega
    have apart : Json.isSurrogate c = false :=
      Bool.eq_false_iff.mpr (mt Utf8.surrogate_bounds.2.2.mp (by omega))
    refine ⟨apart, Bool.eq_false_iff.mpr (mt Utf8.surrogate_bounds.1.mp (by omega)), ?_⟩
    simp [Utf8.encodeAlone, apart, Utf8.encodeUnit, small]
  induction text using Utf8.encode.induct with
  | case1 => simp [Utf8.isWellFormed, Utf8.encode]
  | case2 c =>
      obtain ⟨apart, _, one⟩ := unit c (by simpa using digits)
      simp [Utf8.isWellFormed, apart, Utf8.encode, one]
  | case3 c d rest paired ih =>
      rw [List.all_cons, Bool.and_eq_true] at digits
      rw [(unit c digits.1).2.1] at paired
      cases paired
  | case4 c d rest unpaired ih =>
      rw [List.all_cons, Bool.and_eq_true] at digits
      obtain ⟨apart, _, one⟩ := unit c digits.1
      obtain ⟨formed, length⟩ := ih digits.2
      refine ⟨?_, ?_⟩
      · rw [Utf8.isWellFormed, if_neg unpaired, apart, formed]
        rfl
      · rw [Utf8.encode, if_neg unpaired, List.length_append, one, length]
        simp only [List.length_cons]
        omega

theorem bucket_digits {bucket : Text} (isHour : delegationBucketUtcHour bucket ≠ none) :
    bucket.length = 10 ∧ bucket.all Text.isDigit = true := by
  unfold delegationBucketUtcHour at isHour
  dsimp only at isHour
  split at isHour
  next hour => exact ⟨hour.1, hour.2.1⟩
  next => exact absurd rfl isHour

/-- Of one owner, the preimage keeps the bucket, the place and the digest of the line. -/
theorem eventIdPreimage_injective {owner : SpoolOwner} {bucket other : Text}
    (isHour : delegationBucketUtcHour bucket ≠ none) (isOther : delegationBucketUtcHour other ≠ none)
    {start finish otherStart otherFinish : Nat} {rawLine otherLine : Bytes}
    (fits : start < 256 ^ 8) (otherFits : otherStart < 256 ^ 8)
    (same : eventIdPreimage ⟨owner, bucket⟩ start finish rawLine =
      eventIdPreimage ⟨owner, other⟩ otherStart otherFinish otherLine) :
    bucket = other ∧ start = otherStart := by
  obtain ⟨length, digits⟩ := bucket_digits isHour
  obtain ⟨otherLength, otherDigits⟩ := bucket_digits isOther
  obtain ⟨formed, bytes⟩ := encode_digits digits
  obtain ⟨otherFormed, otherBytes⟩ := encode_digits otherDigits
  have sized : (lengthPrefixed bucket).length = (lengthPrefixed other).length := by
    simp [lengthPrefixed, bigEndianBytes_length, bytes, otherBytes, length, otherLength]
  simp only [eventIdPreimage, List.append_assoc, List.append_cancel_left_eq] at same
  obtain ⟨named, rest⟩ := List.append_inj same sized
  obtain ⟨placed, _⟩ := List.append_inj rest (by simp only [bigEndianBytes_length])
  refine ⟨Utf8.encode_injective formed otherFormed ?_, bigEndianBytes_injective fits otherFits placed⟩
  exact (List.append_inj named (by simp only [bigEndianBytes_length])).2

end Ccrc.Coord
