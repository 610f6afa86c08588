import Ccrc.Linear.Rate

/-! The rate service as it is meant: every bucket always shows its level of the moment,
no session is ever forgotten and no closing outlives its end. -/

set_option autoImplicit false

namespace Ccrc.Linear

open Library

/-- The state at a moment: all buckets are filled up to it. -/
@[ext]
structure RateModel where
  lanes : Text → LinearRateLane → Bucket
  sessions : Text → SessionBuckets
  closed : Text → Option ℚ
  openGrants : Map Nat OpenGrant
  grants : Nat

namespace RateModel

variable (m : RateModel) (now : ℚ)

def setLane (slot : Text) (lane : LinearRateLane) (b : Bucket) : RateModel :=
  { m with lanes := fun other kind => if other = slot ∧ kind = lane then b else m.lanes other kind }

def setSession (id : Text) (s : SessionBuckets) : RateModel :=
  { m with sessions := fun other => if other = id then s else m.sessions other }

def setClosed (slot : Text) (closed : ℚ) : RateModel :=
  { m with closed := fun other => if other = slot then some closed else m.closed other }

/-- The same state at a later moment. -/
def advance : RateModel :=
  { m with
    lanes := fun slot lane => refilled (m.lanes slot lane) (laneSize lane) now
    sessions := fun id => (m.sessions id).refilled now
    closed := fun slot => (m.closed slot).filter fun closed => decide (now < closed) }

def granted (ask : LinearRateAsk) : LinearRateTake × RateModel :=
  let lane := m.lanes (slotKey ask.slot) ask.lane
  (.granted m.grants,
    { m.setLane (slotKey ask.slot) ask.lane { lane with level := lane.level - ask.callsAsked } with
      openGrants := m.openGrants.set m.grants
        ⟨ask.lane, ask.callsAsked, slotKey ask.slot, ask.session.map (·.id),
          (ask.session.map (·.write)).getD false⟩
      grants := m.grants + 1 })

/-- What the slot and the lane say to an ask: a refusal with its wait, or nothing. -/
def laneRefusal (ask : LinearRateAsk) : Option (LinearRateRefusal × Int) :=
  let lane := m.lanes (slotKey ask.slot) ask.lane
  match m.closed (slotKey ask.slot) with
  | some closed => some (.linear, max 1 ⌈(closed - now) / 1000⌉)
  | none =>
      if lane.level < ask.callsAsked then
        some (.workspace, secondsUntil lane (laneSize ask.lane) ask.callsAsked)
      else none

def take (ask : LinearRateAsk) : LinearRateTake × RateModel :=
  match m.laneRefusal now ask with
  | some (detail, wait) => (.refused detail wait, m)
  | none =>
      match ask.session with
      | none => m.granted ask
      | some asked =>
          let session := m.sessions asked.id
          let wait := session.wait ask.callsAsked asked.write
          if 0 < wait then (.refused .session wait, m)
          else (m.setSession asked.id (session.charged ask.callsAsked asked.write)).granted ask

def giveBack (g : OpenGrant) (spent : Int) : RateModel :=
  let back : Int := g.calls - spent
  if 0 < back then
    let m := m.setLane g.slot g.lane
      (Linear.giveBack (m.lanes g.slot g.lane) (laneSize g.lane) back now)
    match g.session with
    | none => m
    | some id => m.setSession id
        ((m.sessions id).giveBack back (g.write && decide (spent = 0)) now)
  else m

def close (slot : Text) (wait : Option Amount) : RateModel :=
  match wait with
  | some (.finite value) =>
      if 0 < value then
        m.setClosed slot (max ((m.closed slot).getD 0) (now + ⌈value⌉ * 1000))
      else m
  | some (.infinite _) | some .nan | none => m

def settle (grant : Nat) (outcome : LinearRateOutcome) : RateModel :=
  match m.openGrants.get? grant with
  | none => m
  | some g =>
      let m := { m with openGrants := m.openGrants.erase grant }
      let m :=
        match spentCalls g.calls outcome.spent with
        | none => m
        | some spent => m.giveBack now g spent
      m.close now g.slot outcome.closeForS

end RateModel

/-- What the service holds at a moment. -/
def LinearRateService.view (service : LinearRateService) (now : ℚ) : RateModel where
  lanes := fun slot lane => refilled (service.laneBucket now slot lane) (laneSize lane) now
  sessions := fun id => ((service.sessions.get? id).getD (SessionBuckets.fresh now)).refilled now
  closed := fun slot => (service.closedUntil.get? slot).filter fun closed => decide (now < closed)
  openGrants := service.openGrants
  grants := service.grants

end Ccrc.Linear
