import Ccrc.Shared.MailEnvelope
import Ccrc.Transcript.Parse

/-! The chat's items, out of the events of a transcript. A tool call and its result are one item,
a quiet gap is a divider, and the sends that are not confirmed yet stand at the end. -/

set_option autoImplicit false

namespace Ccrc.Pwa

open Library Shared Transcript
open Library.Text (lit unit)

def dividerGapMs : Int := 10 * 60000

/-! ## What events say -/

/-- An envelope as a fetch prints it: the fence itself, or the answer that carries it. -/
def parseFetchedMailEnvelope (text : Text) : MailEnvelopeParse :=
  match parseMailEnvelope text with
  | .notMail =>
      if !text.trim.startsWith (lit "\x7b") then .notMail
      else
        match (Json.parse text.trim).bind (·.field? (lit "envelope")) with
        | some (.string envelope) => parseMailEnvelope envelope
        | _ => .notMail
  | direct => direct

structure TaskNotification where
  summary : Option Text
  status : Option Text
  fields : List EnvelopeMember

/-- The wrapper is the whole text, and its members are read one level down. -/
def parseTaskNotification (text : Text) : Option TaskNotification := do
  let outer ← envelopeMembers text
  let body ← outer.find? fun m => m.name == lit "task-notification"
  let members ← envelopeMembers body.value
  let take (name : Text) : Option Text :=
    (members.find? fun m => m.name == name).map (·.value.trim)
  return {
    summary := take (lit "summary")
    status := take (lit "status")
    fields := (members.filter fun m => m.name != lit "summary" && m.name != lit "status").map
      fun m => ⟨m.name, m.value.trim⟩ }

def uuidOf : ChatEvent → Text
  | .user uuid _ _ _ => uuid
  | .assistant uuid _ _ _ => uuid
  | .toolUse uuid _ _ _ _ _ => uuid
  | .toolResult _ _ _ _ _ => []
  | .system uuid _ _ _ _ => uuid

def tsOf : ChatEvent → Text
  | .user _ ts _ _ => ts
  | .assistant _ ts _ _ => ts
  | .toolUse _ ts _ _ _ _ => ts
  | .toolResult ts _ _ _ _ => ts
  | .system _ ts _ _ _ => ts

/-- A divider that the session store minted: its time is the phone's. -/
def isLocalDivider : ChatEvent → Bool
  | .system uuid _ _ _ _ => uuid.startsWith (lit "local-")
  | _ => false

/-! ## Items -/

/-- A send that is not confirmed yet, as far as an item reads it. -/
structure PendingSend where
  key : Text
  text : Text
  deriving DecidableEq, Repr

inductive ChatItem where
  | divider (key label : Text)
  | message (key : Text) (event : ChatEvent) (streaming : Bool)
  | tool (key : Text) (use : ChatEvent) (result : Option ChatEvent)
  | mail (key : Text) (envelope : MailEnvelope) (event : ChatEvent)
  | task (key : Text) (notification : TaskNotification) (event : ChatEvent)
  | pending (key : Text) (send : PendingSend)
  | working

def ChatItem.key : ChatItem → Text
  | .divider key _ => key
  | .message key _ _ => key
  | .tool key _ _ => key
  | .mail key _ _ => key
  | .task key _ _ => key
  | .pending key _ => key
  | .working => lit "working"

/-! ## The build -/

/-- The items so far, and the newest time of the transcript. -/
structure ChatBuild where
  items : List ChatItem
  lastTs : Option Int

def isToolOf (toolId : Text) : ChatItem → Bool
  | .tool key _ _ => key == toolId
  | _ => false

/-- The result goes to the last tool item of its id; without one it is dropped. -/
def attachResult (toolId : Text) (result : ChatEvent) : List ChatItem → List ChatItem
  | [] => []
  | item :: rest =>
      if rest.any (isToolOf toolId) then item :: attachResult toolId result rest
      else
        match item with
        | .tool key use attached =>
            if key = toolId then .tool key use (some result) :: rest
            else .tool key use attached :: attachResult toolId result rest
        | item => item :: attachResult toolId result rest

/-- The mail that a result fetched whole. -/
def fetchedMail (toolId text : Text) (isError : Bool) (truncatedBytes : Nat) (e : ChatEvent) :
    List ChatItem :=
  if !isError && truncatedBytes == 0 then
    match parseFetchedMailEnvelope text with
    | .ok envelope => [.mail (lit "mail-" ++ toolId) envelope e]
    | _ => []
  else []

/-- The item of an event that is no result. -/
def itemOf : ChatEvent → ChatItem
  | .toolUse uuid ts toolId name input truncatedBytes =>
      .tool toolId (.toolUse uuid ts toolId name input truncatedBytes) none
  | .system uuid ts text origin resetsAt =>
      match parseTaskNotification text with
      | some notification => .task uuid notification (.system uuid ts text origin resetsAt)
      | none => .message uuid (.system uuid ts text origin resetsAt) false
  | .user uuid ts text compaction =>
      match parseMailEnvelope text with
      | .ok envelope => .mail uuid envelope (.user uuid ts text compaction)
      | _ => .message uuid (.user uuid ts text compaction) false
  | e => .message (uuidOf e) e false

section Build

-- `new Date(ts).getTime()` where that is a number, and the label of a divider.
variable (getTime : Text → Option Int) (dividerLabel : Text → Option Text)

/-- A divider stands before the first event that has a time, and after a quiet gap. -/
def dividerOf (lastTs : Option Int) (e : ChatEvent) : List ChatItem :=
  match getTime (tsOf e) with
  | none => []
  | some t =>
      if lastTs.all fun last => decide (t - last ≥ dividerGapMs) then
        match dividerLabel (tsOf e) with
        | some label => [.divider (lit "div-" ++ uuidOf e) label]
        | none => []
      else []

/-- The newest time seen; a local divider has none. -/
def newestTs (lastTs : Option Int) (e : ChatEvent) : Option Int :=
  match getTime (tsOf e) with
  | none => lastTs
  | some t =>
      if !isLocalDivider e && lastTs.all fun last => decide (t > last) then some t else lastTs

def addEvent (build : ChatBuild) : ChatEvent → ChatBuild
  | .toolResult ts toolId text isError truncatedBytes =>
      let e : ChatEvent := .toolResult ts toolId text isError truncatedBytes
      { build with
        items := attachResult toolId e build.items ++
          fetchedMail toolId text isError truncatedBytes e }
  | e =>
      { items := build.items ++ dividerOf getTime dividerLabel build.lastTs e ++ [itemOf e]
        lastTs := newestTs getTime build.lastTs e }

/-- The caret rides the last assistant turn. -/
def markStreaming : List ChatItem → List ChatItem
  | [] => []
  | [.message key (.assistant uuid ts text compaction) _] =>
      [.message key (.assistant uuid ts text compaction) true]
  | item :: rest => item :: markStreaming rest

def buildChatItems (events : List ChatEvent) (pending : List PendingSend) (busy : Bool) :
    List ChatItem :=
  let items := (events.foldl (addEvent getTime dividerLabel) ⟨[], none⟩).items
  let items := if busy then markStreaming items else items
  items ++ pending.map (fun p => .pending (lit "pending-" ++ p.key) p) ++
    (if busy then [.working] else [])

end Build

end Ccrc.Pwa
