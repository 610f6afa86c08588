import Ccrc.Coord.LandingJournalPolicy
import Ccrc.Coord.LandingStoreProperties
import Ccrc.Library.TextProperties

/-! The writer and the reader of the authority journal agree: what an accepted write
appends is read back, after everything that was read before it. -/

set_option autoImplicit false

namespace Ccrc.Coord

open Library Shared

/-! ## One line -/

/-- What the reader asks of a mention on its own. -/
structure SoundRef (ref : LandingSubjectRef) : Prop where
  id : 1 ≤ ref.id ∧ ref.id ≤ Number.maxSafeInteger
  project : ref.project.isNonblank = true
  pr : 1 ≤ ref.pr ∧ ref.pr ≤ Number.maxSafeInteger
  binding : ∀ observed, ref.binding = .run observed →
    1 ≤ observed ∧ observed ≤ Number.maxSafeInteger

/-- What the reader asks of a record on its own. -/
structure SoundRecord (record : LandingJournalRecord) : Prop where
  seq : 1 ≤ record.seq ∧ record.seq ≤ Number.maxSafeInteger
  atTime : 0 ≤ record.atTime ∧ record.atTime ≤ Number.maxSafeInteger
  setBy : record.setBy.isNonblank = true
  subject : SoundRef record.subject
  body : match record.body with
    | .entry pinnedSha handoffCommit => record.subject.binding = .noRun ∧
        pinnedSha.isHexOf 40 = true ∧ handoffCommit.isHexOf 40 = true
    | .order after _ => (after.map (·.id)).Nodup ∧
        ∀ ref ∈ after, SoundRef ref ∧ ref.project = record.subject.project ∧
          ref.id ≠ record.subject.id

theorem bindingJson_distinct (binding : LandingHistoricalBinding) :
    (bindingJson binding).Distinct := by
  cases binding with
  | noRun => exact ⟨show [Text.lit "kind"].Nodup by decide, trivial, trivial⟩
  | run observed => exact ⟨show bindingKeys.Nodup by decide, trivial, trivial, trivial⟩

theorem subjectJson_distinct (ref : LandingSubjectRef) : (subjectJson ref).Distinct :=
  ⟨show subjectKeys.Nodup by decide, trivial, trivial, trivial,
    bindingJson_distinct ref.binding, trivial⟩

theorem subjectsJson_distinct (refs : List LandingSubjectRef) :
    Json.DistinctItems (refs.map subjectJson) := by
  induction refs with
  | nil => trivial
  | cons ref refs ih => exact ⟨subjectJson_distinct ref, ih⟩

theorem recordJson_distinct (record : LandingJournalRecord) : (recordJson record).Distinct := by
  have subject := subjectJson_distinct record.subject
  unfold recordJson
  cases record.body with
  | entry pinnedSha handoffCommit =>
      exact ⟨show entryRecordKeys.Nodup by decide, trivial, trivial, trivial, trivial, subject,
        trivial, ⟨show claimKeys.Nodup by decide, trivial, trivial, trivial⟩, trivial⟩
  | order after fixesMain =>
      exact ⟨show orderRecordKeys.Nodup by decide, trivial, trivial, trivial, trivial, subject,
        trivial, subjectsJson_distinct after, trivial, trivial⟩

theorem readBinding_json {binding : LandingHistoricalBinding}
    (sound : ∀ observed, binding = .run observed →
      1 ≤ observed ∧ observed ≤ Number.maxSafeInteger) :
    readBinding ((bindingJson binding).map Number.ofInt) = some binding := by
  cases binding with
  | noRun => rfl
  | run observed =>
      obtain ⟨positive, small⟩ := sound observed rfl
      have read := safeNumberOf_ofInt Int.one_nonneg positive small
      change (safeNumberOf (.number (Number.ofInt observed)) 1).map _ = _
      rw [read]
      rfl

theorem readSubject_json {ref : LandingSubjectRef} (sound : SoundRef ref) :
    readSubject ((subjectJson ref).map Number.ofInt) = some ref := by
  have id := safeNumberOf_ofInt Int.one_nonneg sound.id.1 sound.id.2
  have pr := safeNumberOf_ofInt Int.one_nonneg sound.pr.1 sound.pr.2
  have project : nonblankText? (.string ref.project) = some ref.project := if_pos sound.project
  have binding := readBinding_json sound.binding
  change (do
    let id ← safeNumberOf (.number (Number.ofInt ref.id)) 1
    let project ← nonblankText? (.string ref.project)
    let pr ← safeNumberOf (.number (Number.ofInt ref.pr)) 1
    let binding ← readBinding ((bindingJson ref.binding).map Number.ofInt)
    return { id, project, pr, binding : LandingSubjectRef }) = some ref
  rw [id, project, pr, binding]
  rfl

theorem readTargets_json {subject : LandingSubjectRef} {seen : List Int}
    {after : List LandingSubjectRef} (distinct : (after.map (·.id)).Nodup)
    (unseen : ∀ ref ∈ after, ref.id ∉ seen)
    (sound : ∀ ref ∈ after, SoundRef ref ∧ ref.project = subject.project ∧ ref.id ≠ subject.id) :
    readTargets subject seen (Json.mapItems Number.ofInt (after.map subjectJson)) =
      some after := by
  induction after generalizing seen with
  | nil => rfl
  | cons ref after ih =>
      obtain ⟨isSound, sameProject, apart⟩ := sound ref List.mem_cons_self
      rw [List.map_cons, List.nodup_cons] at distinct
      have later : ∀ other ∈ after, other.id ∉ ref.id :: seen := by
        intro other member again
        cases List.mem_cons.mp again with
        | inl same => exact distinct.1 (same ▸ List.mem_map_of_mem member)
        | inr old => exact unseen other (List.mem_cons_of_mem ref member) old
      have rest := ih distinct.2 later fun other member =>
        sound other (List.mem_cons_of_mem ref member)
      have fits : ¬(ref.project ≠ subject.project ∨ ref.id = subject.id ∨ ref.id ∈ seen) := by
        rintro (other | same | old)
        · exact other sameProject
        · exact apart same
        · exact unseen ref List.mem_cons_self old
      rw [List.map_cons, Json.mapItems, readTargets, readSubject_json isSound]
      simp only [Option.bind_eq_bind, Option.bind_some, if_neg fits, rest]
      rfl

theorem readClaim_json {pinnedSha handoffCommit : Text} (pinned : pinnedSha.isHexOf 40 = true)
    (handoff : handoffCommit.isHexOf 40 = true) :
    readClaim (.object [(Text.lit "pinnedSha", .string pinnedSha),
      (Text.lit "handoffCommit", .string handoffCommit)]) =
        some (.entry pinnedSha handoffCommit) := by
  have first : hashText? (.string pinnedSha) = some pinnedSha := if_pos pinned
  have second : hashText? (.string handoffCommit) = some handoffCommit := if_pos handoff
  change (do
    let pinnedSha ← hashText? (.string pinnedSha)
    let handoffCommit ← hashText? (.string handoffCommit)
    return LandingRecordBody.entry pinnedSha handoffCommit) = _
  rw [first, second]
  rfl

private theorem shape_ok {fields : List (Text × Json Number)} {kind : LandingWriteKind}
    {record : LandingJournalRecord}
    (version : positiveField? (.object fields) (Text.lit "v") = some 1)
    (isKind : recordKind? (.object fields) = some kind)
    (read : readFields kind (.object fields) = some record) :
    shape (.object fields) = .ok record := by
  simp [shape, version, isKind, read]

/-- A sound record is read back from its own value. -/
theorem shape_json {record : LandingJournalRecord} (sound : SoundRecord record) :
    shape ((recordJson record).map Number.ofInt) = .ok record := by
  have seq := safeNumberOf_ofInt Int.one_nonneg sound.seq.1 sound.seq.2
  have atTime := safeNumberOf_ofInt (Int.le_refl 0) sound.atTime.1 sound.atTime.2
  have setBy : nonblankText? (.string record.setBy) = some record.setBy := if_pos sound.setBy
  have subject := readSubject_json sound.subject
  have body := sound.body
  obtain ⟨seqOf, atOf, setByOf, subjectOf, told⟩ := record
  cases told with
  | entry pinnedSha handoffCommit =>
      have noRun : subjectOf.binding = .noRun := body.1
      have claim := readClaim_json body.2.1 body.2.2
      have fields : readFields .entry ((recordJson
          ⟨seqOf, atOf, setByOf, subjectOf, .entry pinnedSha handoffCommit⟩).map Number.ofInt) =
            some ⟨seqOf, atOf, setByOf, subjectOf, .entry pinnedSha handoffCommit⟩ := by
        change (do
          let seq ← safeNumberOf (.number (Number.ofInt seqOf)) 1
          let atTime ← safeNumberOf (.number (Number.ofInt atOf)) 0
          let setBy ← nonblankText? (.string setByOf)
          let subject ← readSubject ((subjectJson subjectOf).map Number.ofInt)
          let body ← (readClaim (.object [(Text.lit "pinnedSha", .string pinnedSha),
            (Text.lit "handoffCommit", .string handoffCommit)])).filter fun _ =>
              subject.binding == LandingHistoricalBinding.noRun
          return { seq, atTime, setBy, subject, body : LandingJournalRecord }) = _
        rw [seq, atTime, setBy, subject, claim]
        simp [Option.filter, noRun]
      exact shape_ok rfl rfl fields
  | order after fixesMain =>
      obtain ⟨distinct, each⟩ := body
      have targets := readTargets_json distinct (fun _ _ => List.not_mem_nil) each
      have fields : readFields .order ((recordJson
          ⟨seqOf, atOf, setByOf, subjectOf, .order after fixesMain⟩).map Number.ofInt) =
            some ⟨seqOf, atOf, setByOf, subjectOf, .order after fixesMain⟩ := by
        change (do
          let seq ← safeNumberOf (.number (Number.ofInt seqOf)) 1
          let atTime ← safeNumberOf (.number (Number.ofInt atOf)) 0
          let setBy ← nonblankText? (.string setByOf)
          let subject ← readSubject ((subjectJson subjectOf).map Number.ofInt)
          let body ← (readTargets subject []
            (Json.mapItems Number.ofInt (after.map subjectJson))).map fun after =>
              LandingRecordBody.order after fixesMain
          return { seq, atTime, setBy, subject, body : LandingJournalRecord }) = _
        rw [seq, atTime, setBy, subject]
        simp [targets]
      exact shape_ok rfl rfl fields

theorem recordLine_line (record : LandingJournalRecord) :
    lineFeed ∉ recordLine record ∧ (recordLine record).trim ≠ [] := by
  refine ⟨fun member => Json.write_plain _ lineFeed member (by decide), ?_⟩
  have spelled : ∃ rest, recordLine record = Text.unit '{' :: rest := by
    obtain ⟨_, _, _, _, told⟩ := record
    cases told with
    | entry pinnedSha handoffCommit => exact ⟨_, rfl⟩
    | order after fixesMain => exact ⟨_, rfl⟩
  obtain ⟨rest, spelled⟩ := spelled
  rw [spelled]
  exact Text.trim_ne_nil (by decide)

/-! ## The history -/

namespace Identities

/-- Everything the identities hold was mentioned. -/
structure From (identities : Identities) (mentioned : List LandingSubjectRef) : Prop where
  byId : ∀ id key, identities.byId.get? id = some key →
    ∃ ref ∈ mentioned, ref.id = id ∧ Identities.key ref.project ref.pr = key
  byKey : ∀ key id, identities.byKey.get? key = some id →
    ∃ ref ∈ mentioned, Identities.key ref.project ref.pr = key ∧ ref.id = id

theorem from_empty : From Identities.empty [] where
  byId := by
    intro id key known
    cases known
  byKey := by
    intro key id known
    cases known

theorem key_injective {project other : Text} {pr otherPr : Int}
    (small : 1 ≤ pr ∧ pr ≤ Number.maxSafeInteger)
    (otherSmall : 1 ≤ otherPr ∧ otherPr ≤ Number.maxSafeInteger)
    (same : key project pr = key other otherPr) : project = other ∧ pr = otherPr := by
  have pair : ∀ project pr, (Json.array [.string project, .number pr] : Json Int).Distinct :=
    fun _ _ => ⟨trivial, trivial, trivial⟩
  have read := congrArg Json.parse same
  rw [key, key, Json.parse_write _ (pair project pr), Json.parse_write _ (pair other otherPr)]
    at read
  simp only [Json.map, Json.mapItems, Option.some.injEq, Json.array.injEq, List.cons.injEq,
    Json.string.injEq, Json.number.injEq, and_true] at read
  refine ⟨read.1, ?_⟩
  have number := congrArg Number.safeInt? read.2
  unfold Number.maxSafeInteger at small otherSmall
  rw [Number.ofInt_safeInt? (by unfold Number.maxSafeInteger; omega),
    Number.ofInt_safeInt? (by unfold Number.maxSafeInteger; omega)] at number
  exact Option.some.inj number

theorem From.mention {identities next : Identities} {mentioned : List LandingSubjectRef}
    (known : From identities mentioned) {ref : LandingSubjectRef}
    (agreed : identities.mention ref = some next) : From next (mentioned ++ [ref]) := by
  have older : ∀ {other}, other ∈ mentioned → other ∈ mentioned ++ [ref] :=
    fun member => List.mem_append_left _ member
  have newest : ref ∈ mentioned ++ [ref] := by simp
  simp only [Identities.mention] at agreed
  split at agreed
  next => cases agreed
  next =>
      split at agreed
      next => cases agreed
      next =>
          cases agreed
          constructor
          · intro id key isKey
            by_cases here : id = ref.id
            · subst here
              rw [Map.get?_set_self] at isKey
              exact ⟨ref, newest, rfl, Option.some.inj isKey⟩
            · rw [Map.get?_set_ne here] at isKey
              obtain ⟨other, member, same⟩ := known.byId id key isKey
              exact ⟨other, older member, same⟩
          · intro key id isId
            by_cases here : key = Identities.key ref.project ref.pr
            · subst here
              rw [Map.get?_set_self] at isId
              exact ⟨ref, newest, rfl, Option.some.inj isId⟩
            · rw [Map.get?_set_ne here] at isId
              obtain ⟨other, member, same⟩ := known.byKey key id isId
              exact ⟨other, older member, same⟩

theorem From.mentions {identities next : Identities} {mentioned refs : List LandingSubjectRef}
    (known : From identities mentioned)
    (agreed : refs.foldlM Identities.mention identities = some next) :
    From next (mentioned ++ refs) := by
  induction refs generalizing identities mentioned with
  | nil =>
      cases agreed
      rwa [List.append_nil]
  | cons ref refs ih =>
      rw [List.foldlM_cons, Option.bind_eq_bind, Option.bind_eq_some_iff] at agreed
      obtain ⟨identities, first, rest⟩ := agreed
      have all := ih (known.mention first) rest
      rwa [List.append_assoc, List.singleton_append] at all

/-- Two mentions of one id or of one key are of one identity. -/
def Agree (first second : LandingSubjectRef) : Prop :=
  first.id = second.id ∨ first.project = second.project ∧ first.pr = second.pr →
    first.toLandingIdentity = second.toLandingIdentity

/-- A mention that agrees with everything mentioned before is taken. -/
theorem From.mention_isSome {identities : Identities} {mentioned : List LandingSubjectRef}
    (known : From identities mentioned) {ref : LandingSubjectRef}
    (small : ∀ other ∈ mentioned, 1 ≤ other.pr ∧ other.pr ≤ Number.maxSafeInteger)
    (refSmall : 1 ≤ ref.pr ∧ ref.pr ≤ Number.maxSafeInteger)
    (agree : ∀ other ∈ mentioned, Agree other ref) :
    ∃ next, identities.mention ref = some next := by
  have noKey : (identities.byId.get? ref.id).any
      (· ≠ Identities.key ref.project ref.pr) = false := by
    cases held : identities.byId.get? ref.id with
    | none => rfl
    | some key =>
        obtain ⟨other, member, sameId, rfl⟩ := known.byId ref.id key held
        have same := agree other member (Or.inl sameId)
        have sameProject := congrArg LandingIdentity.project same
        have samePr := congrArg LandingIdentity.pr same
        simp [sameProject, samePr]
  have noId : (identities.byKey.get? (Identities.key ref.project ref.pr)).any
      (· ≠ ref.id) = false := by
    cases held : identities.byKey.get? (Identities.key ref.project ref.pr) with
    | none => rfl
    | some id =>
        obtain ⟨other, member, sameKey, rfl⟩ := known.byKey _ id held
        have same := agree other member
          (Or.inr (key_injective (small other member) refSmall sameKey))
        simp [congrArg LandingIdentity.id same]
  simp only [Identities.mention, noKey, noId, Bool.false_eq_true, if_false]
  exact ⟨_, rfl⟩

theorem From.mentions_isSome {identities : Identities} {mentioned refs : List LandingSubjectRef}
    (known : From identities mentioned)
    (small : ∀ ref ∈ mentioned ++ refs, 1 ≤ ref.pr ∧ ref.pr ≤ Number.maxSafeInteger)
    (old : ∀ other ∈ mentioned, ∀ ref ∈ refs, Agree other ref) (new : refs.Pairwise Agree) :
    ∃ next, refs.foldlM Identities.mention identities = some next := by
  induction refs generalizing identities mentioned with
  | nil => exact ⟨identities, rfl⟩
  | cons ref refs ih =>
      obtain ⟨first, rest⟩ := List.pairwise_cons.mp new
      obtain ⟨next, taken⟩ := known.mention_isSome
        (fun other member => small other (List.mem_append_left _ member))
        (small ref (by simp)) fun other member => old other member ref List.mem_cons_self
      have both : ∀ other ∈ mentioned ++ [ref], ∀ later ∈ refs, Agree other later := by
        intro other member later among
        cases List.mem_append.mp member with
        | inl before => exact old other before later (List.mem_cons_of_mem ref among)
        | inr here => exact List.mem_singleton.mp here ▸ first later among
      obtain ⟨last, done⟩ := ih (known.mention taken) (by simpa using small) both rest
      refine ⟨last, ?_⟩
      rw [List.foldlM_cons, taken]
      exact done

end Identities

def mentionsOf (records : List LandingJournalRecord) : List LandingSubjectRef :=
  records.flatMap (·.mentions)

theorem readJournalLine_ok {history next : JournalHistory} {raw : Text}
    (read : readJournalLine history raw = .ok next) :
    ∃ record identities, next = ⟨history.records ++ [record], identities⟩ ∧
      record.mentions.foldlM Identities.mention history.identities = some identities := by
  unfold readJournalLine at read
  split at read
  next => cases read
  next =>
      split at read
      next => cases read
      next doc _ =>
          cases shaped : shape doc with
          | error reason =>
              rw [shaped] at read
              cases read
          | ok record =>
              rw [shaped] at read
              simp only [bind, Except.bind] at read
              split at read
              next => cases read
              next =>
                  split at read
                  next => cases read
                  next =>
                      split at read
                      next => cases read
                      next identities agreed =>
                          cases read
                          exact ⟨record, identities, rfl, agreed⟩

theorem readJournalLines_from {history last : JournalHistory} {lines : List Text}
    (known : history.identities.From (mentionsOf history.records))
    (read : readJournalLines history lines = .ok last) :
    last.identities.From (mentionsOf last.records) := by
  induction lines generalizing history with
  | nil =>
      cases read
      exact known
  | cons raw lines ih =>
      rw [readJournalLines] at read
      split at read
      next => cases read
      next next line =>
          obtain ⟨record, identities, rfl, agreed⟩ := readJournalLine_ok line
          refine ih ?_ read
          simpa [mentionsOf] using known.mentions agreed

theorem readJournalLines_append {history mid last : JournalHistory} {lines : List Text}
    {raw : Text} (before : readJournalLines history lines = .ok mid)
    (line : readJournalLine mid raw = .ok last) :
    readJournalLines history (lines ++ [raw]) = .ok last := by
  induction lines generalizing history with
  | nil =>
      cases before
      simp only [List.nil_append, readJournalLines, line]
  | cons first lines ih =>
      rw [readJournalLines] at before
      split at before
      next => cases before
      next next isNext =>
          rw [List.cons_append, readJournalLines, isNext]
          exact ih before

theorem parseLandingJournal_ok {text : Text} {records : List LandingJournalRecord}
    (accepted : parseLandingJournal text = .ok records) :
    text ≠ [] ∧ (splitJournalRecords text).tail = [] ∧ ∃ identities,
      readJournalLines ⟨[], Identities.empty⟩ (splitJournalRecords text).records =
        .ok ⟨records, identities⟩ ∧ identities.From (mentionsOf records) := by
  unfold parseLandingJournal at accepted
  split at accepted
  next => cases accepted
  next nonempty =>
      dsimp only at accepted
      split at accepted
      next => cases accepted
      next history read =>
          split at accepted
          next => cases accepted
          next complete =>
              cases accepted
              exact ⟨nonempty, not_not.mp complete, history.identities, read,
                readJournalLines_from Identities.from_empty read⟩

/-- What makes a record the next one of a history. -/
structure Follows (records : List LandingJournalRecord) (record : LandingJournalRecord) :
    Prop where
  sound : SoundRecord record
  seq : record.seq = records.length + 1
  small : ∀ ref ∈ mentionsOf records ++ record.mentions,
    1 ≤ ref.pr ∧ ref.pr ≤ Number.maxSafeInteger
  fresh : introduces record = true → ∀ ref ∈ mentionsOf records, ref.id ≠ record.subject.id
  agree : ∀ other ∈ mentionsOf records, ∀ ref ∈ record.mentions, Identities.Agree other ref
  apart : record.mentions.Pairwise Identities.Agree

theorem Follows.readJournalLine {history : JournalHistory}
    (known : history.identities.From (mentionsOf history.records))
    {record : LandingJournalRecord} (follows : Follows history.records record) :
    ∃ identities, readJournalLine history (recordLine record) =
      .ok ⟨history.records ++ [record], identities⟩ := by
  obtain ⟨identities, agreed⟩ :=
    known.mentions_isSome follows.small follows.agree follows.apart
  refine ⟨identities, ?_⟩
  have parsed := Json.parse_write (recordJson record) (recordJson_distinct record)
  have shaped := shape_json follows.sound
  have unheld : ¬(introduces record && history.identities.has record.subject.id) = true := by
    rw [Bool.and_eq_true]
    rintro ⟨creates, held⟩
    obtain ⟨key, isKey⟩ := Option.isSome_iff_exists.mp held
    obtain ⟨ref, member, same, _⟩ := known.byId _ key isKey
    exact follows.fresh creates ref member same
  unfold Coord.readJournalLine
  rw [if_neg (recordLine_line record).2, recordLine, parsed]
  simp only [shaped, bind, Except.bind, follows.seq, ne_eq, not_true, if_false]
  rw [if_neg unheld, agreed]

/-- A text that is read in full, one more line and its newline are read as the
records before it and the line's own. -/
theorem parseLandingJournal_append {text : Text} {records : List LandingJournalRecord}
    (accepted : parseLandingJournal text = .ok records) {record : LandingJournalRecord}
    (follows : Follows records record) :
    parseLandingJournal (text ++ recordLine record ++ [lineFeed]) = .ok (records ++ [record]) := by
  obtain ⟨nonempty, complete, identities, read, known⟩ := parseLandingJournal_ok accepted
  obtain ⟨next, line⟩ : ∃ next, readJournalLine ⟨records, identities⟩ (recordLine record) =
      .ok ⟨records ++ [record], next⟩ := Follows.readJournalLine known follows
  have framed := splitJournalRecords_append nonempty complete (recordLine_line record).1
  have lines := readJournalLines_append read line
  rw [parseLandingJournal, if_neg (by simp), framed]
  simp only [lines, ne_eq, not_true, if_false]

/-- The first line of an absent journal. -/
theorem parseLandingJournal_first {record : LandingJournalRecord} (follows : Follows [] record) :
    parseLandingJournal (recordLine record ++ [lineFeed]) = .ok [record] := by
  obtain ⟨next, line⟩ : ∃ next, readJournalLine ⟨[], Identities.empty⟩ (recordLine record) =
      .ok ⟨[record], next⟩ := Follows.readJournalLine Identities.from_empty follows
  rw [parseLandingJournal, if_neg (by simp), splitJournalRecords_line_end,
    List.splitOn_eq_singleton (recordLine_line record).1]
  simp only [readJournalLines, line, ne_eq, not_true, if_false]

end Ccrc.Coord
