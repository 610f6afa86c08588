import Ccrc.Library.Text

/-! The mail vocabulary: the states of a delivery, the gates that hold one, the
codes a refusal carries and the kinds of a mail. -/

set_option autoImplicit false

namespace Ccrc.Shared

open Library

inductive MailDeliveryState where
  | queued | delivered | acked | rejected | unknown
  deriving DecidableEq, Repr

namespace MailDeliveryState

def text : MailDeliveryState → Text
  | .queued => Text.lit "queued"
  | .delivered => Text.lit "delivered"
  | .acked => Text.lit "acked"
  | .rejected => Text.lit "rejected"
  | .unknown => Text.lit "unknown"

end MailDeliveryState

def mailDeliveryStates : List MailDeliveryState :=
  [.queued, .delivered, .acked, .rejected, .unknown]

/-- The member a stored word names, where it names one. -/
def isMailDeliveryState (word : Text) : Option MailDeliveryState :=
  mailDeliveryStates.find? (·.text == word)

def terminalDeliveryStates : List MailDeliveryState := [.acked, .rejected]

/-- `unknown` is in neither list: a state that cannot be named is not terminal
and is not outstanding either. -/
def outstandingDeliveryStates (terminal : List MailDeliveryState) : List MailDeliveryState :=
  mailDeliveryStates.filter fun state => state ≠ .unknown && !terminal.contains state

inductive MailKind where
  | finding | question | answer | status | artifact | unknown
  deriving DecidableEq, Repr

def MailKind.text : MailKind → Text
  | .finding => Text.lit "finding"
  | .question => Text.lit "question"
  | .answer => Text.lit "answer"
  | .status => Text.lit "status"
  | .artifact => Text.lit "artifact"
  | .unknown => Text.lit "unknown"

def mailKinds : List MailKind := [.finding, .question, .answer, .status, .artifact, .unknown]

def isMailKind (word : Text) : Option MailKind := mailKinds.find? (·.text == word)

inductive MailGate where
  | sameSweep | inFlight | cooldown | registryAbsent | registryUnmeasurable | tmuxGone
  | sessionDead | tmuxUnknown | hibernated | pendingAsk | noPane | noConfigDir | notIdle
  | notQuiet | turnMarkUnreadable | parked | stashFailed | stashOccupied
  deriving DecidableEq, Repr

def MailGate.text : MailGate → Text
  | .sameSweep => Text.lit "same-sweep"
  | .inFlight => Text.lit "in-flight"
  | .cooldown => Text.lit "cooldown"
  | .registryAbsent => Text.lit "registry-absent"
  | .registryUnmeasurable => Text.lit "registry-unmeasurable"
  | .tmuxGone => Text.lit "tmux-gone"
  | .sessionDead => Text.lit "session-dead"
  | .tmuxUnknown => Text.lit "tmux-unknown"
  | .hibernated => Text.lit "hibernated"
  | .pendingAsk => Text.lit "pending-ask"
  | .noPane => Text.lit "no-pane"
  | .noConfigDir => Text.lit "no-config-dir"
  | .notIdle => Text.lit "not-idle"
  | .notQuiet => Text.lit "not-quiet"
  | .turnMarkUnreadable => Text.lit "turn-mark-unreadable"
  | .parked => Text.lit "parked"
  | .stashFailed => Text.lit "stash-failed"
  | .stashOccupied => Text.lit "stash-occupied"

inductive MailRejectCode where
  | unauthenticated | unknownSender | staleUuid | registryUnmeasurable | unknownRecipient
  | unknownRun | oversize | badKind | duplicate | peerQuota | undeliverable | staleTip
  | tipUnmeasurable | branchUnmeasurable | prRegressed | prUnmeasurable | noHandoffCommit
  | staleReview | reportUnreadable | lineageUnmeasured
  deriving DecidableEq, Repr

def MailRejectCode.text : MailRejectCode → Text
  | .unauthenticated => Text.lit "unauthenticated"
  | .unknownSender => Text.lit "unknown-sender"
  | .staleUuid => Text.lit "stale-uuid"
  | .registryUnmeasurable => Text.lit "registry-unmeasurable"
  | .unknownRecipient => Text.lit "unknown-recipient"
  | .unknownRun => Text.lit "unknown-run"
  | .oversize => Text.lit "oversize"
  | .badKind => Text.lit "bad-kind"
  | .duplicate => Text.lit "duplicate"
  | .peerQuota => Text.lit "peer-quota"
  | .undeliverable => Text.lit "undeliverable"
  | .staleTip => Text.lit "stale-tip"
  | .tipUnmeasurable => Text.lit "tip-unmeasurable"
  | .branchUnmeasurable => Text.lit "branch-unmeasurable"
  | .prRegressed => Text.lit "pr-regressed"
  | .prUnmeasurable => Text.lit "pr-unmeasurable"
  | .noHandoffCommit => Text.lit "no-handoff-commit"
  | .staleReview => Text.lit "stale-review"
  | .reportUnreadable => Text.lit "report-unreadable"
  | .lineageUnmeasured => Text.lit "lineage-unmeasured"

def programKickoffSubject : Text := Text.lit "program-kickoff"

def mailEnvelopeFence : Text := Text.lit "ccrc-mail"

end Ccrc.Shared
