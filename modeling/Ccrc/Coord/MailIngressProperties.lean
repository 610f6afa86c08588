import Ccrc.Coord.MailIngress
import Ccrc.Shared.MailEnvelopeProperties

/-! A mail that was admitted is read back from its envelope exactly where its subject is one
line and each of its paths is one line. -/

set_option autoImplicit false

namespace Ccrc.Coord

open Library Shared
open Library.Text (lit unit)
open Shared.MailEnvelope

/-! ## The words of a mail -/

/-- A nonempty text without spaces and line terminators. -/
def Solid (text : Text) : Prop := text ≠ [] ∧ ∀ c ∈ text, 0x2D ≤ c.toNat ∧ c.toNat ≤ 0x7A

theorem alphanumeric_bounds {c : UInt16} (alphanumeric : isAlphanumeric c = true) :
    0x2D ≤ c.toNat ∧ c.toNat ≤ 0x7A := by
  simp only [isAlphanumeric, Text.isDigit, Bool.or_eq_true, Bool.and_eq_true, decide_eq_true_eq,
    UInt16.le_iff_toNat_le] at alphanumeric
  have bounds : (unit 'A').toNat = 0x41 ∧ (unit 'Z').toNat = 0x5A ∧ (unit 'a').toNat = 0x61 ∧
      (unit 'z').toNat = 0x7A ∧ (unit '0').toNat = 0x30 ∧ (unit '9').toNat = 0x39 :=
    ⟨rfl, rfl, rfl, rfl, rfl, rfl⟩
  omega

theorem word_bounds {c : UInt16} {others : Text}
    (word : (isAlphanumeric c || others.contains c) = true)
    (bounds : (others.all fun c => 0x2D ≤ c.toNat ∧ c.toNat ≤ 0x7A) = true) : 0x2D ≤ c.toNat ∧ c.toNat ≤ 0x7A := by
  rcases Bool.or_eq_true_iff.mp word with alphanumeric | other
  · exact alphanumeric_bounds alphanumeric
  · exact of_decide_eq_true (List.all_eq_true.mp bounds c (List.contains_iff_mem.mp other))

theorem isRegistryId_solid {id : Text} (isId : isRegistryId id = true) : Solid id := by
  simp only [isRegistryId, isSessionIdShape, Bool.and_eq_true, Bool.not_eq_true',
    List.all_eq_true] at isId
  obtain ⟨⟨⟨-, some', all⟩, -⟩, -⟩ := isId
  exact ⟨by simpa using some', fun c member => word_bounds (all c member) (by decide)⟩

theorem isProgramSlug_solid {slug : Text} (isSlug : isProgramSlug slug = true) : Solid slug := by
  simp only [isProgramSlug, Bool.and_eq_true, Bool.not_eq_true', List.all_eq_true] at isSlug
  obtain ⟨some', all⟩ := isSlug
  exact ⟨by simpa using some', fun c member => word_bounds (all c member) (by decide)⟩

theorem readNonempty_solid {lead word : Text} (solid : Solid word) :
    readNonempty lead (lead ++ word) = some word :=
  readNonempty_append solid.1 (isPlain_of_mem solid.2)

theorem readKind_text (kind : MailKind) : readKind (lit "kind: " ++ kind.text) = some kind := by
  cases kind <;> decide

/-! ## The header -/

/-- The lines of an envelope between its opening fence and its body. -/
def headerLines (input : EnvelopeInput) : List Text :=
  [lit "id: " ++ Text.ofNat input.id, lit "from: " ++ input.fromId, lit "to: " ++ input.toId] ++
    runLine input ++ [lit "kind: " ++ input.kind.text, lit "subject: " ++ input.subject] ++
    artifactLines input.artifacts ++ ackLines input.id

section Header

variable {mail : AdmittedMail} {deliveryId line : Nat} {text : Text} {rest : List Text}

theorem runLine_program (row : RunOfMail) {program : Text} (isProgram : row.program = some program)
    (isRun : mail.run = some row) :
    runLine (mail.input deliveryId) = [lit "run: " ++ (Text.ofNat row.id ++ (lit " (" ++
      (lit "program:" ++ (program ++ waveText row.wave row.waveOf)) ++ lit ")"))] := by
  have lead : lit " (program:" = lit " (" ++ lit "program:" := rfl
  have whole : ∀ number : Nat, Text.ofInt number = Text.ofNat number := fun _ => rfl
  cases isWave : row.wave with
  | none => simp [runLine, AdmittedMail.input, isRun, isProgram, isWave, waveText, lead]
  | some wave =>
      cases isTotal : row.waveOf with
      | none => simp [runLine, AdmittedMail.input, isRun, isProgram, isWave, isTotal, waveText, lead, whole]
      | some waveOf =>
          simp [runLine, AdmittedMail.input, isRun, isProgram, isWave, isTotal, waveText, lead, whole]

theorem readRunLine_input (apart : text.startsWith (lit "run:") = false) :
    ∃ after', readRunLine ⟨line, runLine (mail.input deliveryId) ++ text :: rest⟩ =
      .ok (⟨(mail.input deliveryId).runId, (mail.input deliveryId).program,
        (mail.input deliveryId).wave, (mail.input deliveryId).waveOf⟩, ⟨after', text :: rest⟩) := by
  cases isRun : mail.run with
  | none =>
      have lines : runLine (mail.input deliveryId) = [] := by
        simp only [runLine, AdmittedMail.input, isRun, Option.map_none]
      refine ⟨line, ?_⟩
      rw [lines, List.nil_append, readRunLine_none apart]
      simp [AdmittedMail.input, isRun, noRun]
  | some row =>
      cases isProgram : row.program with
      | none =>
          have noWave : row.wave = none := by
            have waved := row.waved
            rw [isProgram] at waved
            simpa using waved
          have noTotal : row.waveOf = none := by
            have totalled := row.totalled
            rw [noWave] at totalled
            simpa using totalled
          have lines : runLine (mail.input deliveryId) = [lit "run: " ++ Text.ofNat row.id] := by
            simp only [runLine, AdmittedMail.input, isRun, Option.map_some, Option.bind_some,
              isProgram, List.append_nil]
          refine ⟨line + 1, ?_⟩
          rw [lines, List.singleton_append, readRunLine_some (readRun_alone row.id)]
          simp [AdmittedMail.input, isRun, isProgram, noWave, noTotal]
      | some program =>
          obtain ⟨some', bounds⟩ := isProgramSlug_solid (row.slug program isProgram)
          refine ⟨line + 1, ?_⟩
          rw [runLine_program row isProgram isRun, List.singleton_append,
            readRunLine_some (readRun_program some' bounds row.totalled)]
          simp [AdmittedMail.input, isRun, isProgram]

/-- The indented lines of an acknowledgement, the same for every delivery. -/
theorem ackLines_more : ∀ line ∈ (ackLines 0).tail.dropLast,
    Text.startsWith line indent = true ∧ isPlain line = true := by decide +kernel

/-- The acknowledgement of an envelope is one line, indented ones and the terminator. -/
theorem ackLines_indented (id : Nat) :
    ∃ ack, ackLines id = ack :: ((ackLines 0).tail.dropLast ++ [lit "--"]) ∧
      ack.startsWith (lit "ack: ") = true ∧ isPlain ack = true := by
  refine ⟨_, rfl, rfl, ?_⟩
  have words : isPlain (lit "ack: ccrc-api mail ack ") = true ∧
      isPlain (lit " --json -   (") = true ∧
      isPlain (lit " is this DELIVERY id, not the") = true := by decide
  simp only [isPlain_append, words.1, words.2.1, words.2.2, ofNat_plain, Bool.and_self]

theorem readArtifacts_lines' {artifacts : List Text}
    (leads : text.startsWith (lit "ack: ") = true) :
    ∃ after', readArtifacts ⟨line, artifactLines artifacts ++ text :: rest⟩ =
      .ok (artifacts, ⟨after', text :: rest⟩) := by
  have other : text ≠ lit "artifacts:" := by
    rintro rfl
    cases leads
  have apart : text.startsWith indent = false := by
    obtain ⟨more, rfl⟩ := List.isPrefixOf_iff_prefix.mp leads
    rfl
  unfold artifactLines
  by_cases none' : artifacts = []
  · rw [if_pos none', none', List.nil_append]
    exact ⟨line, readArtifacts_none other⟩
  · rw [if_neg none', List.cons_append]
    exact ⟨line + 1 + artifacts.length, readArtifacts_some none' apart⟩

theorem readHeader_lines {body : List Text} (subject : isPlain mail.draft.subject = true) :
    readHeader ⟨1, headerLines (mail.input deliveryId) ++ body⟩ =
      .ok { (mail.input deliveryId).envelope with body := Text.join [MailEnvelope.newline] body } := by
  obtain ⟨ack, isAck, leads, -⟩ := ackLines_indented (mail.input deliveryId).id
  have lines : headerLines (mail.input deliveryId) ++ body =
      (lit "id: " ++ Text.ofNat deliveryId) :: (lit "from: " ++ mail.draft.fromId) ::
        (lit "to: " ++ mail.toId) :: (runLine (mail.input deliveryId) ++
          (lit "kind: " ++ mail.draft.kind.text) :: (lit "subject: " ++ mail.draft.subject) ::
          (artifactLines mail.draft.artifacts ++
            ack :: ((ackLines 0).tail.dropLast ++ lit "--" :: body))) := by
    rw [headerLines, isAck]
    simp [AdmittedMail.input]
  have isId : readId (lit "id: " ++ Text.ofNat deliveryId) = some deliveryId := by
    rw [readId, afterLead_append, Option.bind_some, readDigits_ofNat]
  have isSubject : MailEnvelope.readSubject (lit "subject: " ++ mail.draft.subject) = some mail.draft.subject := by
    rw [MailEnvelope.readSubject, afterLead_append, Option.filter_some, subject]
    rfl
  obtain ⟨afterRun, isRun⟩ := @readRunLine_input mail deliveryId (1 + 1 + 1 + 1)
    (lit "kind: " ++ mail.draft.kind.text) ((lit "subject: " ++ mail.draft.subject) ::
      (artifactLines mail.draft.artifacts ++
        ack :: ((ackLines 0).tail.dropLast ++ lit "--" :: body))) rfl
  obtain ⟨afterPaths, isPaths⟩ := @readArtifacts_lines' (afterRun + 1 + 1) ack
    ((ackLines 0).tail.dropLast ++ lit "--" :: body) mail.draft.artifacts leads
  rw [readHeader, lines]
  refine bind_ok.mpr ⟨_, MailEnvelope.readLine_ok isId, ?_⟩
  refine bind_ok.mpr ⟨_, MailEnvelope.readLine_ok (readNonempty_solid (isRegistryId_solid mail.sender)), ?_⟩
  refine bind_ok.mpr ⟨_, MailEnvelope.readLine_ok (readNonempty_solid (isRegistryId_solid mail.recipient)), ?_⟩
  refine bind_ok.mpr ⟨_, isRun, ?_⟩
  refine bind_ok.mpr ⟨_, MailEnvelope.readLine_ok (readKind_text _), ?_⟩
  refine bind_ok.mpr ⟨_, MailEnvelope.readLine_ok isSubject, ?_⟩
  refine bind_ok.mpr ⟨_, isPaths, ?_⟩
  exact bind_ok.mpr ⟨_, readAck_ok leads fun line member => (ackLines_more line member).1, rfl⟩

/-! ## The whole text -/

theorem runLine_plain (line' : Text) (member : line' ∈ runLine (mail.input deliveryId)) :
    isPlain line' = true := by
  cases isRun : mail.run with
  | none =>
      simp only [runLine, AdmittedMail.input, isRun, Option.map_none] at member
      cases member
  | some row =>
      have lead : isPlain (lit "run: ") = true := by decide
      cases isProgram : row.program with
      | none =>
          simp only [runLine, AdmittedMail.input, isRun, Option.map_some, Option.bind_some,
            isProgram, List.append_nil, List.mem_singleton] at member
          rw [member, isPlain_append, lead, ofNat_plain]
          rfl
      | some program =>
          have parens : isPlain (lit " (") = true ∧ isPlain (lit "program:") = true ∧
              isPlain (lit ")") = true := by decide
          rw [runLine_program row isProgram isRun, List.mem_singleton] at member
          simp only [member, isPlain_append, lead, parens.1, parens.2.1, parens.2.2, ofNat_plain,
            waveText_plain, isPlain_of_mem (isProgramSlug_solid (row.slug program isProgram)).2,
            Bool.and_self]

theorem ackLines_plain (id : Nat) : ∀ line ∈ ackLines id, isPlain line = true := by
  obtain ⟨ack, isAck, -, plain⟩ := ackLines_indented id
  rw [isAck, List.forall_mem_cons, List.forall_mem_append]
  exact ⟨plain, fun line member => (ackLines_more line member).2, by decide⟩

theorem lead_free {lead word : Text} (plain : isPlain lead = true) (free : MailEnvelope.newline ∉ word) :
    MailEnvelope.newline ∉ lead ++ word := by
  rw [List.mem_append, not_or]
  exact ⟨newline_not_mem plain, free⟩

theorem headerLines_free (subject : isPlain mail.draft.subject = true)
    (paths : ∀ path ∈ mail.draft.artifacts, MailEnvelope.newline ∉ path) :
    ∀ line ∈ headerLines (mail.input deliveryId), MailEnvelope.newline ∉ line := by
  have solid : ∀ {word : Text}, Solid word → MailEnvelope.newline ∉ word := fun isSolid =>
    newline_not_mem (isPlain_of_mem isSolid.2)
  have kind : isPlain mail.draft.kind.text = true := by
    cases mail.draft.kind <;> decide
  simp only [headerLines, List.forall_mem_append, List.forall_mem_cons, List.not_mem_nil,
    false_implies, implies_true, and_true]
  refine ⟨⟨⟨⟨⟨?_, ?_, ?_⟩, ?_⟩, ?_, ?_⟩, ?_⟩, ?_⟩
  · exact lead_free (by decide) (newline_not_mem (ofNat_plain _))
  · exact lead_free (by decide) (solid (isRegistryId_solid mail.sender))
  · exact lead_free (by decide) (solid (isRegistryId_solid mail.recipient))
  · exact fun line member => newline_not_mem (runLine_plain line member)
  · exact lead_free (by decide) (newline_not_mem kind)
  · exact lead_free (by decide) (newline_not_mem subject)
  · unfold artifactLines
    split
    next => simp
    next =>
        refine List.forall_mem_cons.mpr ⟨by decide, fun line member => ?_⟩
        obtain ⟨path, isPath, rfl⟩ := List.mem_map.mp member
        exact lead_free (by decide) (paths path isPath)
  · exact fun line member => newline_not_mem (ackLines_plain _ line member)

/-- The lines of an envelope, its fences included. -/
theorem renderEnvelope_lines (input : EnvelopeInput) :
    ∃ count, 3 ≤ count ∧ renderEnvelope input = [MailEnvelope.newline].intercalate
      (((List.replicate count backtick ++ mailEnvelopeFence) ::
        (headerLines input ++ input.body.splitOn MailEnvelope.newline)) ++ [List.replicate count backtick]) := by
  have header : headerLines input ≠ [] := by simp [headerLines]
  have body : input.body.splitOn MailEnvelope.newline ≠ [] := List.splitOn_ne_nil _ _
  have feed : lit "\n" = [MailEnvelope.newline] := rfl
  refine ⟨max 3 (longestFence (Text.join [MailEnvelope.newline] (headerLines input) ++ [MailEnvelope.newline] ++
    input.body) + 1), Nat.le_max_left _ _, ?_⟩
  rw [intercalate_append _ (List.cons_ne_nil _ _) (List.cons_ne_nil _ _),
    List.intercalate_cons_of_ne_nil (by simp [header]), intercalate_append _ header body,
    List.intercalate_splitOn, List.intercalate_singleton, ← Text.join_eq_intercalate]
  simp only [renderEnvelope, fenceFor, fenceUnit, backtick, feed, headerLines, List.append_assoc]

theorem parseMailEnvelope_render (subject : isPlain mail.draft.subject = true)
    (paths : ∀ path ∈ mail.draft.artifacts, MailEnvelope.newline ∉ path) :
    parseMailEnvelope (renderEnvelope (mail.input deliveryId)) =
      .ok (mail.input deliveryId).envelope := by
  obtain ⟨count, long, isText⟩ := renderEnvelope_lines (mail.input deliveryId)
  have fence : MailEnvelope.newline ∉ List.replicate count backtick := fun member =>
    absurd (List.eq_of_mem_replicate member) (by decide)
  have free : ∀ line ∈ (List.replicate count backtick ++ mailEnvelopeFence) ::
      (headerLines (mail.input deliveryId) ++ (mail.input deliveryId).body.splitOn MailEnvelope.newline) ++
      [List.replicate count backtick], MailEnvelope.newline ∉ line := by
    have opener : MailEnvelope.newline ∉ List.replicate count backtick ++ mailEnvelopeFence := by
      rw [List.mem_append, not_or]
      exact ⟨fence, by decide⟩
    simp only [List.forall_mem_append, List.forall_mem_cons, List.not_mem_nil, false_implies,
      implies_true, and_true]
    exact ⟨⟨opener, headerLines_free subject paths, fun _ => not_mem_of_mem_splitOn⟩, fence⟩
  have lines := List.splitOn_intercalate MailEnvelope.newline free (by simp)
  rw [← isText] at lines
  obtain ⟨inner, isFenced⟩ : ∃ inner, renderEnvelope (mail.input deliveryId) =
      List.replicate count backtick ++ inner ++ List.replicate count backtick := by
    have middle : headerLines (mail.input deliveryId) ++
        (mail.input deliveryId).body.splitOn MailEnvelope.newline ≠ [] := by simp [headerLines]
    rw [isText, intercalate_append _ (List.cons_ne_nil _ _) (List.cons_ne_nil _ _),
      List.intercalate_cons_of_ne_nil middle, List.intercalate_singleton]
    exact ⟨mailEnvelopeFence ++ ([MailEnvelope.newline] ++ [MailEnvelope.newline].intercalate
      (headerLines (mail.input deliveryId) ++ (mail.input deliveryId).body.splitOn MailEnvelope.newline) ++
      [MailEnvelope.newline]), by simp only [List.append_assoc]⟩
  obtain ⟨trimmed, starts⟩ := fenced_trim long isFenced
  refine parseMailEnvelope_fenced long trimmed starts lines ?_
  rw [readHeader_lines subject, Text.join_eq_intercalate, List.intercalate_splitOn]
  rfl

end Header

/-- What is read back of a mail's envelope is the mail, and the inbox prints the mail's own
fields. -/
structure ReadBack (mail : AdmittedMail) (deliveryId : Nat) : Prop where
  card : parseMailEnvelope (renderEnvelope (mail.input deliveryId)) =
    .ok (mail.input deliveryId).envelope
  inbox : renderInboxEntry deliveryId (renderEnvelope (mail.input deliveryId)) =
    inboxPrint deliveryId (mail.input deliveryId).envelope

/-- A mail is read back exactly where its subject and its paths are each one line. -/
theorem mail_readBack (mail : AdmittedMail) (deliveryId : Nat) :
    ReadBack mail deliveryId ↔
      isPlain mail.draft.subject = true ∧ ∀ path ∈ mail.draft.artifacts, MailEnvelope.newline ∉ path := by
  constructor
  · intro readBack
    exact parseMailEnvelope_plain readBack.card
  · rintro ⟨subject, paths⟩
    have card := @parseMailEnvelope_render mail deliveryId subject paths
    refine ⟨card, ?_⟩
    rw [renderInboxEntry, card]

/-! ## A subject of two lines -/

def forgedSubject : Text := lit "status\nartifacts:\n  /etc/passwd"

def forgedDraft : MailDraft where
  fromId := lit "s1"
  fromUuid := lit "u1"
  toId := lit "s2"
  runId := none
  kind := .status
  subject := forgedSubject
  body := lit "done"
  artifacts := []

def forgedMail : AdmittedMail where
  draft := forgedDraft
  checked := ⟨fun _ => [], .object [(lit "fromId", .string (lit "s1")),
    (lit "fromUuid", .string (lit "u1")), (lit "toId", .string (lit "s2")),
    (lit "kind", .string (lit "status")), (lit "subject", .string forgedSubject),
    (lit "body", .string (lit "done"))], rfl⟩
  sender := by decide
  toId := lit "s2"
  recipient := by decide
  run := none
  ran := rfl

/-- The card shows a path that the mail does not name. -/
theorem mail_readBack_fails :
    ¬ReadBack forgedMail 1 ∧
      parseMailEnvelope (renderEnvelope (forgedMail.input 1)) =
        .ok { (forgedMail.input 1).envelope with
          subject := lit "status", artifacts := [lit "/etc/passwd"] } := by
  have card : parseMailEnvelope (renderEnvelope (forgedMail.input 1)) =
      .ok { (forgedMail.input 1).envelope with
        subject := lit "status", artifacts := [lit "/etc/passwd"] } := by decide +kernel
  refine ⟨fun readBack => ?_, card⟩
  have same := card.symm.trans readBack.card
  injection same with same
  exact absurd (congrArg MailEnvelope.artifacts same) (by decide)

end Ccrc.Coord
