import Ccrc.Library.Text

/-! The delegation spool: the bounds of its lines, the closed union that a line is one
of, and the envelope of a line that the server read. -/

set_option autoImplicit false

namespace Ccrc.Shared

open Library

namespace DelegationSpoolBounds

def lineBytesBelow : Nat := 4096

def idBytes : Nat := 64

def ownerIdBytes : Nat := 128

def labelBytes : Nat := 128

def pathBytes : Nat := 512

def listingNames : Nat := 256

def listingNameBytes : Nat := 64

end DelegationSpoolBounds

inductive DelegationAgenticTool where
  | agent | task | workflow
  deriving DecidableEq, Repr

inductive DelegationAgentOutcome where
  | completed | failed | asyncLaunched | unknown
  deriving DecidableEq, Repr

inductive DelegationBashOutcome where
  | completed | failed | unknown
  deriving DecidableEq, Repr

inductive DelegationLaunchStatus where
  | asyncLaunched | completed
  deriving DecidableEq, Repr

inductive DelegationNotificationStatus where
  | completed | failed | cancelled | unknown
  deriving DecidableEq, Repr

structure DelegationAgentLaunch where
  status : DelegationLaunchStatus
  agentId : Text
  isAsync : Bool
  deriving DecidableEq, Repr

structure DelegationWorkflowLaunch where
  status : DelegationLaunchStatus
  taskId : Text
  taskType : Text
  workflowName : Text
  runId : Text
  transcriptDir : Text
  scriptPath : Text
  deriving DecidableEq, Repr

structure DelegationNotification where
  taskId : Text
  toolUseId : Text
  status : DelegationNotificationStatus
  deriving DecidableEq, Repr

/-- The keys that every line carries; none is an absent one. -/
structure DelegationSpoolCommon where
  observedAt : Text
  sessionId : Text
  parentIncarnation : Text
  claudeSessionId : Text
  claudeVersion : Option Text
  cwd : Option Text
  transcriptPath : Option Text
  agentId : Option Text
  agentType : Option (Option Text)
  truncated : Bool
  deriving DecidableEq, Repr

/-- The keys of one variant. -/
inductive DelegationLineBody where
  | sessionStart (source : Text)
  | sessionEnd (reason : Text)
  | subagentStart (agentId : Text) (agentType : Option Text)
  | subagentStop (agentId : Text) (agentType agentTranscriptPath : Option Text)
  | userPromptSubmit (notification : DelegationNotification)
  | preAgentic (toolName : DelegationAgenticTool) (toolUseId : Text) (isolation : Option Text)
  | preBash (toolUseId : Text) (listing : Option (List Text))
  | postAgent (toolName : DelegationAgenticTool) (toolUseId : Text)
      (outcome : DelegationAgentOutcome) (launch : Option DelegationAgentLaunch)
  | postWorkflow (toolUseId : Text) (outcome : DelegationAgentOutcome)
      (launch : Option DelegationWorkflowLaunch)
  | postBash (toolUseId : Text) (outcome : DelegationBashOutcome) (listing : Option (List Text))
  deriving DecidableEq, Repr

structure DelegationSpoolLine extends DelegationSpoolCommon where
  body : DelegationLineBody
  deriving DecidableEq, Repr

/-- A line as the server read it, with the byte range that its id is derived from. -/
structure DelegationEventEnvelope extends DelegationSpoolLine where
  eventId : Text
  bucket : Text
  startOffset : Nat
  endOffset : Nat
  deriving DecidableEq, Repr

end Ccrc.Shared
