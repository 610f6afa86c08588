import Ccrc.Coord.LandingJournalAgreement
import Ccrc.Coord.LandingRecovery

/-! The landing line survives its crashes. The overlay is the journal's own fold up to
the cursor, an open fence means that nothing of the journal is missing, and an id that
a row or a record carries is one subject's for good. -/

set_option autoImplicit false

namespace Ccrc.Coord

open Library Shared

/-! ## The overlay of a journal -/

def emptyOverlay : LandingTables := ⟨[], [], [], [], [], []⟩

/-- The fold of the records from an empty overlay, and the cursor it leaves. -/
def journalOverlay (records : List LandingJournalRecord) : LandingTables × Int :=
  records.foldl applyRecord (emptyOverlay, 0)

structure SameOverlay (first second : LandingTables × Int) : Prop where
  subjects : first.1.subjects = second.1.subjects
  authorities : first.1.authorities = second.1.authorities
  cursor : first.2 = second.2

theorem SameOverlay.applyRecord {first second : LandingTables × Int}
    (same : SameOverlay first second) (record : LandingJournalRecord) :
    SameOverlay (applyRecord first record) (applyRecord second record) := by
  refine ⟨?_, ?_, rfl⟩
  · simp only [Coord.applyRecord, applyLandingRecord, same.subjects]
  · simp only [Coord.applyRecord, applyLandingRecord, same.authorities]

theorem SameOverlay.fold {first second : LandingTables × Int} (same : SameOverlay first second)
    (records : List LandingJournalRecord) :
    SameOverlay (records.foldl Coord.applyRecord first) (records.foldl Coord.applyRecord second) := by
  induction records generalizing first second with
  | nil => exact same
  | cons record records ih => exact ih (same.applyRecord record)

theorem foldl_applyRecord_entries (start : LandingTables × Int)
    (records : List LandingJournalRecord) :
    (records.foldl applyRecord start).1.entries = start.1.entries := by
  induction records generalizing start with
  | nil => rfl
  | cons record records ih => exact ih (applyRecord start record)

theorem journalOverlay_append (before after : List LandingJournalRecord) :
    journalOverlay (before ++ after) = after.foldl applyRecord (journalOverlay before) := by
  rw [journalOverlay, List.foldl_append, journalOverlay]

/-- Records numbered from one. -/
def Numbered (records : List LandingJournalRecord) : Prop :=
  ∀ (index : Nat) (record : LandingJournalRecord), records[index]? = some record →
    record.seq = (index : Int) + 1

theorem Numbered.append {records : List LandingJournalRecord} (numbered : Numbered records)
    {record : LandingJournalRecord} (next : record.seq = (records.length : Int) + 1) :
    Numbered (records ++ [record]) := by
  intro index other isOther
  rcases Nat.lt_or_ge index records.length with inside | past
  · rw [List.getElem?_append_left inside] at isOther
    exact numbered index other isOther
  · rw [List.getElem?_append_right past, List.getElem?_singleton] at isOther
    split at isOther
    next last =>
        cases isOther
        rw [next]
        omega
    next => cases isOther

theorem Numbered.seq_nodup {records : List LandingJournalRecord} (numbered : Numbered records) :
    (records.map (·.seq)).Nodup := by
  rw [List.nodup_iff_injective_get]
  intro first second same
  have seqOf : ∀ index : Fin (records.map (·.seq)).length,
      (records.map (·.seq)).get index = (index.1 : Int) + 1 := by
    intro index
    have small : index.1 < records.length := by simpa using index.2
    rw [List.get_eq_getElem, List.getElem_map]
    exact numbered index.1 _ (List.getElem?_eq_getElem small)
  rw [seqOf, seqOf] at same
  exact Fin.ext (by omega)

theorem Numbered.take {records : List LandingJournalRecord} (numbered : Numbered records)
    (count : Nat) : Numbered (records.take count) := by
  intro index record isRecord
  rw [List.getElem?_take] at isRecord
  split at isRecord
  next => exact numbered index record isRecord
  next => cases isRecord

theorem journalOverlay_cursor {records : List LandingJournalRecord} (numbered : Numbered records) :
    (journalOverlay records).2 = records.length := by
  induction records using List.reverseRecOn with
  | nil => rfl
  | append_singleton records record _ =>
      rw [journalOverlay_append]
      have last := numbered records.length record (by simp)
      simpa [applyRecord] using last

/-- What is past the cursor is what the overlay has not applied. -/
theorem Numbered.suffix {records : List LandingJournalRecord} (numbered : Numbered records)
    (count : Nat) :
    (records.filter fun record => decide ((count : Int) < record.seq)) = records.drop count := by
  conv_lhs => rw [← List.take_append_drop count records]
  rw [List.filter_append]
  have applied : (records.take count).filter (fun record => decide ((count : Int) < record.seq)) =
      [] := by
    refine List.filter_eq_nil_iff.mpr fun record member past => ?_
    obtain ⟨index, small, rfl⟩ := List.getElem_of_mem member
    have seq := numbered.take count index _ (List.getElem?_eq_getElem small)
    rw [List.length_take] at small
    rw [seq] at past
    have after := of_decide_eq_true past
    omega
  have missing : (records.drop count).filter (fun record => decide ((count : Int) < record.seq)) =
      records.drop count := by
    refine List.filter_eq_self.mpr fun record member => ?_
    obtain ⟨index, small, rfl⟩ := List.getElem_of_mem member
    have seq := numbered (count + index) _ (by rw [← List.getElem?_drop, List.getElem?_eq_getElem small])
    rw [seq]
    exact decide_eq_true (by omega)
  rw [applied, missing, List.nil_append]

/-! ## Identities -/

/-- Every subject of the overlay is one that a record mentions. -/
theorem journalOverlay_mentions {records : List LandingJournalRecord} {subject : LandingSubjectRow}
    (member : subject ∈ (journalOverlay records).1.subjects) :
    ∃ ref ∈ mentionsOf records, ref.toLandingIdentity = subject.identity := by
  induction records using List.reverseRecOn generalizing subject with
  | nil => cases member
  | append_singleton records record ih =>
      rw [journalOverlay_append] at member
      rw [mentionsOf, List.flatMap_append]
      rcases applyLandingRecord_adds ⟨subject, member, rfl⟩ with ⟨old, isOld, same⟩ | ⟨ref, isRef, same⟩
      · obtain ⟨ref, isRef, identity⟩ := ih isOld
        exact ⟨ref, List.mem_append_left _ isRef, identity.trans same⟩
      · exact ⟨ref, List.mem_append_right _ (by simpa using isRef), same⟩

/-- Of the identities no two share an id. -/
def IdsAgree (identities : List LandingIdentity) : Prop :=
  ∀ first ∈ identities, ∀ second ∈ identities, first.id = second.id → first = second

def mentionIdentities (records : List LandingJournalRecord) : List LandingIdentity :=
  (mentionsOf records).map (·.toLandingIdentity)

theorem foldl_upsertSubject_present {seq : Int} {refs : List LandingSubjectRef}
    {subjects : List LandingSubjectRow} {known : List LandingIdentity} (agree : IdsAgree known)
    (old : ∀ subject ∈ subjects, subject.identity ∈ known)
    (new : ∀ ref ∈ refs, ref.toLandingIdentity ∈ known) {ref : LandingSubjectRef}
    (member : ref ∈ refs) :
    ∃ subject ∈ refs.foldl (fun subjects ref =>
        upsertSubject subjects (landingSubjectRowOf seq none ref)) subjects,
      subject.identity = ref.toLandingIdentity := by
  induction refs generalizing subjects with
  | nil => cases member
  | cons first refs ih =>
      have firstKnown := new first List.mem_cons_self
      cases List.mem_cons.mp member with
      | inl here =>
          subst here
          refine foldl_upsertSubject_keeps seq refs (upsertSubject_present subjects
            (landingSubjectRowOf seq none ref) fun subject isSubject same => ?_)
          exact agree _ (old subject isSubject) _ firstKnown same
      | inr later =>
          refine ih (fun subject isSubject => ?_)
            (fun other isOther => new other (List.mem_cons_of_mem first isOther)) later
          rcases upsertSubject_adds ⟨subject, isSubject, rfl⟩ with ⟨former, isFormer, same⟩ | same
          · exact same ▸ old former isFormer
          · exact same ▸ firstKnown

theorem mentions_eq (record : LandingJournalRecord) :
    record.mentions = record.subject :: recordTargets record := by
  unfold LandingJournalRecord.mentions recordTargets
  cases record.body with
  | entry => rfl
  | order => rfl

theorem applyLandingRecord_present {tables : LandingTables} {record : LandingJournalRecord}
    {known : List LandingIdentity} (agree : IdsAgree known)
    (old : ∀ subject ∈ tables.subjects, subject.identity ∈ known)
    (new : ∀ ref ∈ record.mentions, ref.toLandingIdentity ∈ known) {ref : LandingSubjectRef}
    (member : ref ∈ record.mentions) :
    ∃ subject ∈ (applyLandingRecord tables record).subjects,
      subject.identity = ref.toLandingIdentity := by
  rw [mentions_eq] at new member
  have subjectKnown := new record.subject List.mem_cons_self
  cases List.mem_cons.mp member with
  | inl here =>
      subst here
      refine foldl_upsertSubject_keeps record.seq _ (upsertSubject_present tables.subjects
        (landingSubjectRowOf record.seq (creationClaimText record) record.subject)
        fun subject isSubject same => ?_)
      exact agree _ (old subject isSubject) _ subjectKnown same
  | inr target =>
      refine foldl_upsertSubject_present agree (fun subject isSubject => ?_)
        (fun other isOther => new other (List.mem_cons_of_mem _ isOther)) target
      rcases upsertSubject_adds ⟨subject, isSubject, rfl⟩ with ⟨former, isFormer, same⟩ | same
      · exact same ▸ old former isFormer
      · exact same ▸ subjectKnown

theorem mentionsOf_append (before after : List LandingJournalRecord) :
    mentionsOf (before ++ after) = mentionsOf before ++ mentionsOf after :=
  List.flatMap_append

theorem IdsAgree.of_subset {known fewer : List LandingIdentity} (agree : IdsAgree known)
    (subset : fewer ⊆ known) : IdsAgree fewer :=
  fun first isFirst second isSecond => agree first (subset isFirst) second (subset isSecond)

/-- An identity whose id is new agrees with all that are known. -/
theorem IdsAgree.fresh {known : List LandingIdentity} (agree : IdsAgree known)
    {identity : LandingIdentity} (new : ∀ other ∈ known, other.id ≠ identity.id) :
    IdsAgree (identity :: known) := by
  intro first isFirst second isSecond same
  cases List.mem_cons.mp isFirst with
  | inl here =>
      cases List.mem_cons.mp isSecond with
      | inl too => exact here.trans too.symm
      | inr old => exact absurd (here ▸ same.symm) (new second old)
  | inr known =>
      cases List.mem_cons.mp isSecond with
      | inl here => exact absurd (here ▸ same) (new first known)
      | inr old => exact agree first known second old same

/-- Every identity that the journal mentions is a subject of its overlay. -/
theorem journalOverlay_covers {records : List LandingJournalRecord}
    (agree : IdsAgree (mentionIdentities records)) {ref : LandingSubjectRef}
    (member : ref ∈ mentionsOf records) :
    ∃ subject ∈ (journalOverlay records).1.subjects,
      subject.identity = ref.toLandingIdentity := by
  induction records using List.reverseRecOn generalizing ref with
  | nil => cases member
  | append_singleton records record ih =>
      have ofRecord : mentionsOf [record] = record.mentions := List.flatMap_singleton ..
      rw [journalOverlay_append]
      rw [mentionsOf_append, ofRecord] at member
      rw [mentionIdentities, mentionsOf_append, ofRecord, List.map_append] at agree
      cases List.mem_append.mp member with
      | inl old =>
          exact applyLandingRecord_keeps record
            (ih (agree.of_subset (List.subset_append_left _ _)) old)
      | inr new =>
          refine applyLandingRecord_present agree (fun subject isSubject => ?_)
            (fun other isOther => List.mem_append_right _ (List.mem_map_of_mem isOther)) new
          obtain ⟨other, isOther, same⟩ := journalOverlay_mentions isSubject
          exact List.mem_append_left _ (same ▸ List.mem_map_of_mem isOther)

end Ccrc.Coord
