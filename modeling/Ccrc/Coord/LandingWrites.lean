import Ccrc.Coord.LandingEntry
import Ccrc.Library.Worklist

/-! The attributed landing writes: how a request reads, what one decides, and the
journal record it becomes. -/

set_option autoImplicit false

namespace Ccrc.Coord

open Library Shared

/-! ## Requests -/

inductive LandingAuthorityCommand where
  | entry (project : Text) (pr : Int) (pinnedSha handoffCommit setBy : Text)
  | order (project : Text) (pr : Int) (afterIds : Option (List Int)) (fixesMain : Option Bool)
      (setBy : Text)
  deriving DecidableEq, Repr

def LandingAuthorityCommand.project : LandingAuthorityCommand → Text
  | .entry project _ _ _ _ | .order project _ _ _ _ => project

def LandingAuthorityCommand.pr : LandingAuthorityCommand → Int
  | .entry _ pr _ _ _ | .order _ pr _ _ _ => pr

def LandingAuthorityCommand.setBy : LandingAuthorityCommand → Text
  | .entry _ _ _ _ setBy | .order _ _ _ _ setBy => setBy

structure LandingCaller where
  byId : Text
  byUuid : Text
  project : Text
  pr : Int
  deriving DecidableEq, Repr

inductive LandingRequest where
  | entry (caller : LandingCaller) (pinnedSha handoffCommit : Text)
  | order (caller : LandingCaller) (afterIds : Option (List Int)) (fixesMain : Option Bool)
  deriving DecidableEq, Repr

inductive LandingWriteKind where
  | entry | order
  deriving DecidableEq, Repr

def landingEntryKeys : List Text :=
  ["byId", "byUuid", "project", "pr", "pinnedSha", "handoffCommit"].map Text.lit

def landingOrderKeys : List Text :=
  ["byId", "byUuid", "project", "pr", "afterIds", "fixesMain"].map Text.lit

def LandingWriteKind.keys : LandingWriteKind → List Text
  | .entry => landingEntryKeys
  | .order => landingOrderKeys

/-- A text with more than white space, trimmed. -/
def requestText? : Json Number → Option Text
  | .string text => if text.trim = [] then none else some text.trim
  | .null | .bool _ | .number _ | .array _ | .object _ => none

def requestIds? : Json Number → Option (List Int)
  | .array items => (items.mapM (safeNumberOf · 1)).filter fun ids => decide ids.Nodup
  | .null | .bool _ | .number _ | .string _ | .object _ => none

def requestFlag? : Json Number → Option Bool
  | .bool value => some value
  | .null | .number _ | .string _ | .array _ | .object _ => none

/-- An optional field: absent, or read. -/
def requestField? {β : Type} (read : Json Number → Option β) (body : Json Number) (key : Text) :
    Option (Option β) :=
  match body.field? key with
  | none => some none
  | some value => (read value).map some

def landingCallerOf (body : Json Number) : Option LandingCaller := do
  let byId ← (body.field? (Text.lit "byId")).bind requestText?
  let byUuid ← (body.field? (Text.lit "byUuid")).bind requestText?
  let project ← (body.field? (Text.lit "project")).bind requestText?
  let pr ← (body.field? (Text.lit "pr")).bind (safeNumberOf · 1)
  return { byId, byUuid, project, pr }

/-- One closed request body: its known keys only; none is a bad request. -/
def parseLandingWrite (kind : LandingWriteKind) (body : Json Number) : Option LandingRequest :=
  match body with
  | .object fields =>
      if fields.any fun field => decide (field.1 ∉ kind.keys) then none
      else do
        let caller ← landingCallerOf body
        match kind with
        | .entry =>
            let pinnedSha ← (body.field? (Text.lit "pinnedSha")).bind hashText?
            let handoffCommit ← (body.field? (Text.lit "handoffCommit")).bind hashText?
            return .entry caller pinnedSha handoffCommit
        | .order =>
            let afterIds ← requestField? requestIds? body (Text.lit "afterIds")
            let fixesMain ← requestField? requestFlag? body (Text.lit "fixesMain")
            if afterIds = none ∧ fixesMain = none then none
            else return .order caller afterIds fixesMain
  | .null | .bool _ | .number _ | .string _ | .array _ => none

/-- The setter is the attributed sender, never a body field. -/
def landingCommandOf : LandingRequest → LandingAuthorityCommand
  | .entry caller pinnedSha handoffCommit =>
      .entry caller.project caller.pr pinnedSha handoffCommit caller.byId
  | .order caller afterIds fixesMain =>
      .order caller.project caller.pr afterIds fixesMain caller.byId

/-! ## The decision -/

/-- A creation, or an order with the association that its decision read. -/
inductive LandingMutation where
  | entry (id : Int) (project : Text) (pr : Int) (pinnedSha handoffCommit setBy : Text)
  | order (entry : LandingEntry) (coordinator : LandingCoordinator)
      (binding : LandingHistoricalBinding) (after : List LandingSubjectRef) (fixesMain : Bool)
  deriving DecidableEq, Repr

inductive LandingDecision where
  | noop (entry : LandingEntry) (coordinator : LandingCoordinator)
  | mutate (mutation : LandingMutation)
  deriving DecidableEq, Repr

def landingBindingOf : LandingCoordinator → LandingHistoricalBinding
  | .noRun => .noRun
  | .run runId _ => .run runId

namespace LandingMutationFacts

variable (facts : LandingMutationFacts)

def listsKey (project : Text) (pr : Int) : Bool :=
  facts.recovery.subjects.any fun subject => subject.project == project && subject.pr == pr

def entryOfKey (project : Text) (pr : Int) : Option LandingEntry :=
  facts.entries.find? fun entry => entry.project == project && entry.pr == pr

def depsOf (id : Int) : LandingDependencies := (facts.dependencies.get? id).getD .unreadable

/-- `new Map(entries)`: of two entries of one id the later one is known. -/
def known (id : Int) : Option LandingEntry := facts.entries.reverse.find? (·.id == id)

/-- What is wrong with a node that the graph names. -/
def classify (sourceId id : Int) : Option LandingMutationCode :=
  if id = sourceId then none
  else if (facts.known id).isSome then none
  else if id ∈ facts.foreignIds then some .landingAfterCrossProject
  else some .landingAfterMissing

def coordinatorOf (entry : LandingEntry) : Option LandingCoordinator :=
  (facts.coordinators.get? entry.id).join

def walkReject (sourceId id : Int) : Option LandingMutationCode :=
  if id = sourceId then some .landingCycle else none

def walkExpand (sourceId id : Int) : Except LandingMutationCode (List Int) :=
  match facts.classify sourceId id with
  | some bad => .error bad
  | none =>
      match facts.depsOf id with
      | .unreadable => .error .landingDependenciesUnreadable
      | .readable afterIds => .ok afterIds

def walkWeight (id : Int) : Nat :=
  match facts.depsOf id with
  | .unreadable => 0
  | .readable afterIds => afterIds.length

/-- Pops enough for every entry's edges once. -/
def walkFuel (effective : List Int) : Nat :=
  pending facts.walkWeight (facts.entries.map (·.id)) [] effective.reverse

/-- The nodes that the proposed edges reach, or why they may not. -/
def walk (sourceId : Int) (effective : List Int) : Except LandingMutationCode (List Int) :=
  explore (walkReject sourceId) (facts.walkExpand sourceId) .landingCycle
    (facts.walkFuel effective) [] effective.reverse

/-- The source of an order: its entry, readable, with no recovery unresolved. -/
def orderSource (project : Text) (pr : Int) : Except LandingMutationCode LandingEntry :=
  match facts.entryOfKey project pr with
  | none =>
      .error (if facts.listsKey project pr then .landingRecoveryUnresolved
        else .landingEntryMissing)
  | some source =>
      match facts.projections.get? source.id with
      | some (.readable _) =>
          if facts.recovery.subjects ≠ [] then .error .landingRecoveryUnresolved else .ok source
      | some .unreadable | none => .error .landingProjectionUnreadable

/-- The edges an order leaves: those it sends, each once, or the current ones. -/
def effectiveAfter (source : LandingEntry) (afterIds : Option (List Int)) :
    Except LandingMutationCode (List Int) :=
  match afterIds with
  | some ids => .ok (firstBy id [] ids)
  | none =>
      match facts.depsOf source.id with
      | .readable current => .ok current
      | .unreadable => .error .landingDependenciesUnreadable

/-- A target's journal mention, with its current association. -/
def targetRef (id : Int) : Except LandingMutationCode LandingSubjectRef :=
  match (facts.known id).bind fun entry =>
      (facts.coordinatorOf entry).map fun coordinator => (entry, coordinator) with
  | some (entry, coordinator) =>
      .ok { toLandingIdentity := entry.identity, binding := landingBindingOf coordinator }
  | none => .error .runUnreadable

def decideOrder (project : Text) (pr : Int) (afterIds : Option (List Int))
    (fixesMain : Option Bool) : Except LandingMutationCode LandingDecision := do
  let source ← facts.orderSource project pr
  let effective ← facts.effectiveAfter source afterIds
  let fixes := fixesMain.getD source.fixesMain
  match effective.findSome? (facts.classify source.id) with
  | some bad => .error bad
  | none =>
      let _ ← facts.walk source.id effective
      match facts.coordinatorOf source with
      | none => .error .runUnreadable
      | some coordinator =>
          let after ← effective.mapM facts.targetRef
          if facts.depsOf source.id = .readable effective ∧ fixes = source.fixesMain then
            .ok (.noop source coordinator)
          else .ok (.mutate (.order source coordinator (landingBindingOf coordinator) after fixes))

def decideEntry (project : Text) (pr : Int) (pinnedSha handoffCommit setBy : Text) :
    Except LandingMutationCode LandingDecision :=
  if (facts.entryOfKey project pr).isSome || facts.listsKey project pr then
    .error .landingEntryExists
  else if facts.recovery.subjects ≠ [] then .error .landingRecoveryUnresolved
  else match facts.nextId with
    | none => .error .landingIdOverflow
    | some id => .ok (.mutate (.entry id project pr pinnedSha handoffCommit setBy))

end LandingMutationFacts

def LandingSubjectProjection.isConflict : LandingSubjectProjection → Bool
  | .identityConflict _ => true
  | .missing | .associationUnmeasured => false

def decideLandingMutation (command : LandingAuthorityCommand) (facts : LandingMutationFacts) :
    Except LandingMutationCode LandingDecision :=
  if facts.recovery.subjects.any (LandingSubjectProjection.isConflict ·.projection) then
    .error .landingIdentityConflict
  else match command with
    | .entry project pr pinnedSha handoffCommit setBy =>
        facts.decideEntry project pr pinnedSha handoffCommit setBy
    | .order project pr afterIds fixesMain _ => facts.decideOrder project pr afterIds fixesMain

/-- The journal record that a mutation becomes. -/
def landingRecordOf (command : LandingAuthorityCommand) (mutation : LandingMutation)
    (seq atTime : Int) : LandingJournalRecord :=
  match mutation with
  | .entry id project pr pinnedSha handoffCommit setBy =>
      { seq, atTime, setBy, subject := { id, project, pr, binding := .noRun }
        body := .entry pinnedSha handoffCommit }
  | .order entry _ binding after fixesMain =>
      { seq, atTime, setBy := command.setBy
        subject := { toLandingIdentity := entry.identity, binding }
        body := .order after fixesMain }

end Ccrc.Coord
