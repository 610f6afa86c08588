import Ccrc.Library.Map
import Ccrc.Library.Text

/-! The rate service for Linear calls: token buckets for each lane of a slot and for each
session, refilled when they are looked at, and slots closed after a refusal of Linear's own.
Levels and times are exact rationals. -/

set_option autoImplicit false

namespace Ccrc.Linear

open Library

inductive LinearSlotRef where
  | legacy
  | file (id : Text)
  deriving DecidableEq, Repr

inductive LinearRateLane where
  | proxy | request | floor
  deriving DecidableEq, Repr

def LinearRateLane.text : LinearRateLane → Text
  | .proxy => Text.lit "proxy"
  | .request => Text.lit "request"
  | .floor => Text.lit "floor"

/-- The lanes of a slot never borrow from each other. -/
def linearLaneCallsPerHour : LinearRateLane → ℚ
  | .proxy => 1700
  | .request => 100
  | .floor => 200

/-- After a restart each lane starts at this share of its size. -/
def linearRestartShare : ℚ := 1 / 4

structure LinearSessionBudget where
  callsPerHour : ℚ
  callsPerMinute : ℚ
  writesPerHour : ℚ
  deriving DecidableEq, Repr

def linearSessionBudget : LinearSessionBudget where
  callsPerHour := 150
  callsPerMinute := 20
  writesPerHour := 50

structure SessionAsk where
  id : Text
  write : Bool
  deriving DecidableEq, Repr

structure LinearRateAsk where
  lane : LinearRateLane
  slot : LinearSlotRef
  calls : ℚ
  session : Option SessionAsk
  deriving DecidableEq, Repr

inductive LinearRateRefusal where
  | linear | workspace | session
  deriving DecidableEq, Repr

/-- A grant is known by its number. -/
inductive LinearRateTake where
  | granted (grant : Nat)
  | refused (detail : LinearRateRefusal) (retryAfterS : Int)
  deriving DecidableEq, Repr

/-- A number that a caller reports. -/
inductive Amount where
  | finite (value : ℚ)
  | infinite (negative : Bool)
  | nan
  deriving DecidableEq, Repr

structure LinearRateOutcome where
  spent : Amount
  closeForS : Option Amount
  deriving DecidableEq, Repr

/-! ## The pure transitions -/

def hourMs : ℚ := 3600000

def minuteMs : ℚ := 60000

structure Bucket where
  level : ℚ
  atTime : ℚ
  deriving DecidableEq, Repr

structure Size where
  size : ℚ
  windowMs : ℚ
  deriving DecidableEq, Repr

def refilled (b : Bucket) (s : Size) (now : ℚ) : Bucket :=
  if now ≤ b.atTime then b
  else ⟨min s.size (b.level + ((now - b.atTime) * s.size) / s.windowMs), now⟩

def secondsUntil (b : Bucket) (s : Size) (n : ℚ) : Int :=
  max 1 ⌈(((n - b.level) * s.windowMs) / s.size) / 1000⌉

def giveBack (b : Bucket) (s : Size) (n now : ℚ) : Bucket :=
  let r := refilled b s now
  ⟨min s.size (r.level + n), r.atTime⟩

def laneSize (lane : LinearRateLane) : Size := ⟨linearLaneCallsPerHour lane, hourMs⟩

def sessionHour : Size := ⟨linearSessionBudget.callsPerHour, hourMs⟩

def sessionMinute : Size := ⟨linearSessionBudget.callsPerMinute, minuteMs⟩

def sessionWrites : Size := ⟨linearSessionBudget.writesPerHour, hourMs⟩

def slotKey : LinearSlotRef → Text
  | .legacy => Text.lit "legacy"
  | .file id => Text.lit "file:" ++ id

def laneKey (slot : Text) (lane : LinearRateLane) : Text := slot ++ 0 :: lane.text

structure SessionBuckets where
  hour : Bucket
  minute : Bucket
  writes : Bucket
  deriving DecidableEq, Repr

structure OpenGrant where
  lane : LinearRateLane
  calls : Int
  slot : Text
  session : Option Text
  write : Bool
  deriving DecidableEq, Repr

def sessionPruneAt : Nat := 256

/-- `grants` is the number of grants made so far, so the next grant is a new one. -/
structure LinearRateService where
  lanes : Map Text Bucket
  closedUntil : Map Text ℚ
  sessions : Map Text SessionBuckets
  openGrants : Map Nat OpenGrant
  grants : Nat
  bornAt : ℚ
  deriving DecidableEq, Repr

/-- The service as it is built. -/
def LinearRateService.built (now : ℚ) : LinearRateService := ⟨[], [], [], [], 0, now⟩

/-! ## Sessions -/

def SessionBuckets.fresh (now : ℚ) : SessionBuckets where
  hour := ⟨sessionHour.size, now⟩
  minute := ⟨sessionMinute.size, now⟩
  writes := ⟨sessionWrites.size, now⟩

def SessionBuckets.refilled (s : SessionBuckets) (now : ℚ) : SessionBuckets where
  hour := Linear.refilled s.hour sessionHour now
  minute := Linear.refilled s.minute sessionMinute now
  writes := Linear.refilled s.writes sessionWrites now

def SessionBuckets.isFull (s : SessionBuckets) (now : ℚ) : Bool :=
  decide (sessionHour.size ≤ (s.refilled now).hour.level) &&
    decide (sessionMinute.size ≤ (s.refilled now).minute.level) &&
    decide (sessionWrites.size ≤ (s.refilled now).writes.level)

/-- Forgets sessions whose buckets are full again. -/
def prune (now : ℚ) (sessions : Map Text SessionBuckets) : Map Text SessionBuckets :=
  if sessions.length ≤ sessionPruneAt then sessions
  else sessions.filter fun entry => !entry.2.isFull now

/-- The longest wait of the session's buckets; none is 0. -/
def SessionBuckets.wait (s : SessionBuckets) (calls : Int) (write : Bool) : Int :=
  max (if s.hour.level < calls then secondsUntil s.hour sessionHour calls else 0)
    (max (if s.minute.level < calls then secondsUntil s.minute sessionMinute calls else 0)
      (if write && decide (s.writes.level < 1) then secondsUntil s.writes sessionWrites 1 else 0))

def SessionBuckets.charged (s : SessionBuckets) (calls : Int) (write : Bool) :
    SessionBuckets where
  hour := { s.hour with level := s.hour.level - calls }
  minute := { s.minute with level := s.minute.level - calls }
  writes := if write then { s.writes with level := s.writes.level - 1 } else s.writes

/-- The buckets of a session at the moment, new ones where none are kept. -/
def sessionNow (sessions : Map Text SessionBuckets) (id : Text) (now : ℚ) : SessionBuckets :=
  match sessions.get? id with
  | none => SessionBuckets.fresh now
  | some was => was.refilled now

/-! ## Taking -/

def LinearRateAsk.callsAsked (ask : LinearRateAsk) : Int := max 1 ⌈ask.calls⌉

section

variable (drop : ℚ → Map Text SessionBuckets → Map Text SessionBuckets)
variable (service : LinearRateService) (ask : LinearRateAsk) (now : ℚ)

/-- The lane's bucket as it is kept, or as it was when the service was built. -/
def LinearRateService.laneBucket (slot : Text) (lane : LinearRateLane) : Bucket :=
  (service.lanes.get? (laneKey slot lane)).getD
    ⟨(laneSize lane).size * linearRestartShare, min service.bornAt now⟩

def LinearRateService.granted (lane : Bucket) : LinearRateTake × LinearRateService :=
  let slot := slotKey ask.slot
  (.granted service.grants,
    { service with
      lanes := service.lanes.set (laneKey slot ask.lane)
        { lane with level := lane.level - ask.callsAsked }
      openGrants := service.openGrants.set service.grants
        ⟨ask.lane, ask.callsAsked, slot, ask.session.map (·.id),
          (ask.session.map (·.write)).getD false⟩
      grants := service.grants + 1 })

/-- The session's part of a take, its lane having the calls. -/
def LinearRateService.takeSession (lane : Bucket) : LinearRateTake × LinearRateService :=
  match ask.session with
  | none => service.granted ask lane
  | some asked =>
      let sessions := drop now service.sessions
      let session := sessionNow sessions asked.id now
      let wait := session.wait ask.callsAsked asked.write
      if 0 < wait then
        (.refused .session wait, { service with sessions := sessions.set asked.id session })
      else
        { service with
          sessions := sessions.set asked.id (session.charged ask.callsAsked asked.write) }.granted
            ask lane

/-- A take on a slot that is not closed. -/
def LinearRateService.takeLane : LinearRateTake × LinearRateService :=
  let slot := slotKey ask.slot
  let size := laneSize ask.lane
  let lane := refilled (service.laneBucket now slot ask.lane) size now
  let service := { service with lanes := service.lanes.set (laneKey slot ask.lane) lane }
  if lane.level < ask.callsAsked then
    (.refused .workspace (secondsUntil lane size ask.callsAsked), service)
  else service.takeSession drop ask now lane

/-- Asks for calls from the slot's lane and, for a session, from its buckets: all or none.
`drop` forgets sessions. -/
def LinearRateService.takeWith : LinearRateTake × LinearRateService :=
  let slot := slotKey ask.slot
  match service.closedUntil.get? slot with
  | some closed =>
      if now < closed then (.refused .linear (max 1 ⌈(closed - now) / 1000⌉), service)
      else { service with closedUntil := service.closedUntil.erase slot }.takeLane drop ask now
  | none => service.takeLane drop ask now

def LinearRateService.take : LinearRateTake × LinearRateService :=
  service.takeWith prune ask now

end

/-! ## Settling -/

/-- `Math.min(calls, Math.max(0, Math.ceil(spent)))`; none is not a number. -/
def spentCalls (calls : Int) : Amount → Option Int
  | .finite value => some (min calls (max 0 ⌈value⌉))
  | .infinite true => some 0
  | .infinite false => some calls
  | .nan => none

def SessionBuckets.giveBack (s : SessionBuckets) (back : ℚ) (unsent : Bool) (now : ℚ) :
    SessionBuckets where
  hour := Linear.giveBack s.hour sessionHour back now
  minute := Linear.giveBack s.minute sessionMinute back now
  writes := if unsent then Linear.giveBack s.writes sessionWrites 1 now else s.writes

/-- Gives back the calls that a grant did not spend, to the lane and to the session. -/
def LinearRateService.giveBack (service : LinearRateService) (g : OpenGrant) (spent : Int)
    (now : ℚ) : LinearRateService :=
  let back := g.calls - spent
  if 0 < back then
    let key := laneKey g.slot g.lane
    { service with
      lanes :=
        match service.lanes.get? key with
        | none => service.lanes
        | some lane => service.lanes.set key (Linear.giveBack lane (laneSize g.lane) back now)
      sessions :=
        match g.session with
        | none => service.sessions
        | some id =>
            match service.sessions.get? id with
            | none => service.sessions
            | some s => service.sessions.set id
                (s.giveBack back (g.write && decide (spent = 0)) now) }
  else service

/-- Closes the slot for a wait that is finite and positive. -/
def LinearRateService.close (service : LinearRateService) (slot : Text) (wait : Option Amount)
    (now : ℚ) : LinearRateService :=
  match wait with
  | some (.finite value) =>
      if 0 < value then
        { service with
          closedUntil := service.closedUntil.set slot
            (max ((service.closedUntil.get? slot).getD 0) (now + ⌈value⌉ * 1000)) }
      else service
  | some (.infinite _) | some .nan | none => service

/-- Reports a granted take, once. -/
def LinearRateService.settle (service : LinearRateService) (grant : Nat)
    (outcome : LinearRateOutcome) (now : ℚ) : LinearRateService :=
  match service.openGrants.get? grant with
  | none => service
  | some g =>
      let service := { service with openGrants := service.openGrants.erase grant }
      let service :=
        match spentCalls g.calls outcome.spent with
        | none => service
        | some spent => service.giveBack g spent now
      service.close g.slot outcome.closeForS now

end Ccrc.Linear
