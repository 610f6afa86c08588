import Ccrc.Library.Text

/-! The landing line's words: the state of an entry, the identity and binding of a
subject, the records of the authority journal and what recovery lists. -/

set_option autoImplicit false

namespace Ccrc.Shared

open Library

inductive LandingEntryState where
  | pinned | ejected | landed | withdrawn | unknown
  deriving DecidableEq, Repr

/-- `isLandingEntryState`: the state that a word names. -/
def LandingEntryState.ofText? (word : Text) : Option LandingEntryState :=
  if word = Text.lit "pinned" then some .pinned
  else if word = Text.lit "ejected" then some .ejected
  else if word = Text.lit "landed" then some .landed
  else if word = Text.lit "withdrawn" then some .withdrawn
  else if word = Text.lit "unknown" then some .unknown
  else none

inductive LandingEjectionKind where
  | dequeued | newHead | conflict
  deriving DecidableEq, Repr

def LandingEjectionKind.text : LandingEjectionKind → Text
  | .dequeued => Text.lit "dequeued"
  | .newHead => Text.lit "new-head"
  | .conflict => Text.lit "conflict"

def LandingEjectionKind.ofText? (word : Text) : Option LandingEjectionKind :=
  if word = Text.lit "dequeued" then some .dequeued
  else if word = Text.lit "new-head" then some .newHead
  else if word = Text.lit "conflict" then some .conflict
  else none

structure LandingEntry where
  id : Int
  project : Text
  pr : Int
  pinnedSha : Text
  handoffCommit : Text
  runId : Option Int
  state : LandingEntryState
  baseSha : Option Text
  ejectionKind : Option LandingEjectionKind
  ejections : Int
  afterIds : List Int
  fixesMain : Bool
  setBy : Text
  pinnedAt : Int
  deriving DecidableEq, Repr

structure LandingLineFlags where
  operatorPaused : Bool
  mainRedHold : Bool
  deriving DecidableEq, Repr

structure LandingIdentity where
  id : Int
  project : Text
  pr : Int
  deriving DecidableEq, Repr

def LandingEntry.identity (entry : LandingEntry) : LandingIdentity where
  id := entry.id
  project := entry.project
  pr := entry.pr

inductive LandingHistoricalBinding where
  | noRun
  | run (observedRunId : Int)
  deriving DecidableEq, Repr

structure LandingSubjectRef extends LandingIdentity where
  binding : LandingHistoricalBinding
  deriving DecidableEq, Repr

structure LandingCreationClaim where
  atTime : Int
  setBy : Text
  pinnedSha : Text
  handoffCommit : Text
  deriving DecidableEq, Repr

structure LandingAuthority where
  afterIds : List Int
  fixesMain : Bool
  setBy : Text
  seq : Int
  deriving DecidableEq, Repr

/-- What a journal record says of its subject. -/
inductive LandingRecordBody where
  | entry (pinnedSha handoffCommit : Text)
  | order (after : List LandingSubjectRef) (fixesMain : Bool)
  deriving DecidableEq, Repr

structure LandingJournalRecord where
  seq : Int
  atTime : Int
  setBy : Text
  subject : LandingSubjectRef
  body : LandingRecordBody
  deriving DecidableEq, Repr

/-- The subjects a record names: its own, then those it orders after. -/
def LandingJournalRecord.mentions (record : LandingJournalRecord) : List LandingSubjectRef :=
  match record.body with
  | .entry _ _ => [record.subject]
  | .order after _ => record.subject :: after

inductive LandingJournalInvalidReason where
  | empty | blank | torn | json | version | kind | fields | sequence | identity
  deriving DecidableEq, Repr

inductive LandingCreation where
  | recorded (claim : LandingCreationClaim) (seq : Int)
  | notRecorded
  deriving DecidableEq, Repr

inductive LandingSubjectProjection where
  | missing
  | associationUnmeasured
  | identityConflict (conflicts : List LandingIdentity)
  deriving DecidableEq, Repr

structure LandingRecoverySubject extends LandingIdentity where
  creation : LandingCreation
  binding : LandingHistoricalBinding
  observedSeq : Int
  projection : LandingSubjectProjection
  authority : Option LandingAuthority
  deriving DecidableEq, Repr

/-- The listed subjects, and the ids that hold the line while there are any. -/
structure LandingRecovery where
  subjects : List LandingRecoverySubject
  hold : Option (List Int)
  deriving DecidableEq, Repr

inductive LandingMutationCode where
  | landingEntryExists | landingEntryMissing | landingAfterMissing | landingAfterCrossProject
  | landingCycle | landingDependenciesUnreadable | landingRecoveryUnresolved
  | landingIdentityConflict | landingIdOverflow | landingSequenceOverflow
  | runUnreadable | landingProjectionUnreadable
  deriving DecidableEq, Repr

end Ccrc.Shared
