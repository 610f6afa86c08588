import Ccrc.Library.Map
import Ccrc.Library.Run
import Ccrc.Testbox.Pristine
import Ccrc.Testbox.Queue

/-! The run manager of a test box, as far as pristine installs go: runs and builds in
one queue, the prepares that name install inputs, and one build's install unit. -/

set_option autoImplicit false

namespace Ccrc.Testbox

open Library
open Library.Text (lit unit)

/-! ## A prepare's install steps -/

inductive InstallMode where
  | clone
  | install
  deriving DecidableEq, Repr

structure InstallStep where
  package : Text
  /-- No value when the inputs could not be read at the run's tree. -/
  key : Option Text
  mode : InstallMode
  dir : Text
  argv : List Text
  deriving DecidableEq, Repr

def cloneArgv : List Text :=
  [lit "cp", lit "-R", lit "--reflink=always", lit "--preserve=timestamps"]

def installArgv : List Text := [lit "npm", lit "ci", lit "--prefer-offline"]

def installStep (package : Text) (key : Option Text) (present : Bool)
    (pristineRoot checkout : Text) : InstallStep :=
  let dir := checkout ++ lit "/" ++ package
  match key, present with
  | some held, true =>
      { package, key, mode := .clone, dir
        argv := cloneArgv ++ [pristineRoot ++ lit "/" ++ held, dir ++ lit "/node_modules"] }
  | _, _ => { package, key, mode := .install, dir, argv := installArgv }

/-- The key a step clones, if it clones one. -/
def InstallStep.cloned (step : InstallStep) : Option Text :=
  if step.mode = .clone then step.key else none

/-! ## The service -/

/-- A prepare that has not ended. -/
structure Prepare where
  checkout : Text
  installs : List InstallStep
  deriving DecidableEq, Repr

/-- A build that has started. -/
structure Build where
  key : Text
  /-- The doomed keys handed to the install unit; no value where the build runs none. -/
  doomed : Option (List Text)
  deriving DecidableEq, Repr

structure Service where
  store : PristineStore
  queue : QueueState
  prepares : Map Text Prepare
  builds : List Build
  /-- History, which the code does not keep: each key queued for a build, and the state its
  entry was in just then. -/
  queued : List (Text × Option PristineState)
  deriving DecidableEq, Repr

structure ServiceSettings where
  pristineRoot : Text
  pristine : PristineSettings
  deriving DecidableEq, Repr

/-- The queue's word for the service's own pristine builds. -/
def pristineSession : Text := lit "pristine"

def failedExit : Int := 255

/-- The start of `build`, up to the install unit. -/
def startBuild (store : PristineStore) (key : Text) : Build :=
  match store.find key with
  | none => { key, doomed := none }
  | some entry => { key, doomed := if entry.package.isNone then none else some store.doomed }

namespace Service

/-- `start`, with the directories found under `pristine/`. -/
def start (node platform : Text) (keys : List Text) (now : Int) : Service :=
  { store := (emptyStore node platform).adopt keys now
    queue := emptyQueue, prepares := [], builds := [], queued := [] }

/-- Everything the queue admits starts; a run's own steps come later. -/
def pump (service : Service) (limits : QueueLimits) : Service :=
  let admission := service.queue.admitWaiting limits
  let started := admission.started.filter fun entry => entry.kind = .pristine
  { service with
    queue := admission.state
    builds := service.builds ++ started.map fun entry => startBuild service.store entry.id }

/-- One key of the loop of `queueBuilds`. -/
def queueBuild (service : Service) (key : Text) : Service :=
  match service.queue.enqueue { id := key, session := pristineSession, kind := .pristine } with
  | none => service
  | some queue =>
      { service with
        queue
        store := service.store.buildQueued key
        queued := service.queued ++ [(key, (service.store.find key).map (·.state))] }

def queueBuilds (service : Service) (now : Int) (limits : QueueLimits) : Service :=
  ((service.store.due now).foldl queueBuild service).pump limits

def pristineTick (service : Service) (settings : ServiceSettings) (node : Text) (now : Int)
    (limits : QueueLimits) : Service :=
  { service with
    store := (service.store.nodeChanged node now).expire now settings.pristine.keepMs
  }.queueBuilds now limits

/-- A run is queued. -/
def submit (service : Service) (runId session : Text) (limits : QueueLimits) : Service :=
  match service.queue.enqueue { id := runId, session, kind := .run } with
  | none => service
  | some queue => { service with queue }.pump limits

def hasRun (entries : List QueueEntry) (runId : Text) : Bool :=
  entries.any fun entry => entry.id = runId && entry.kind = .run

/-- A run that waits leaves the queue. -/
def cancel (service : Service) (runId : Text) : Service :=
  if hasRun service.queue.waiting runId then
    { service with queue := service.queue.cancel runId }
  else service

def startPrepare (service : Service) (runId checkout : Text) : Service :=
  if hasRun service.queue.running runId && (service.prepares.get? runId).isNone then
    { service with prepares := service.prepares.set runId { checkout, installs := [] } }
  else service

/-- One package of `installSteps`, its inputs read or not. -/
def namePackage (service : Service) (settings : ServiceSettings) (runId repository package : Text)
    (inputs : Option (List InstallInput)) (now : Int) : Service :=
  match service.prepares.get? runId with
  | none => service
  | some prepare =>
      let named (key : Option Text) (present : Bool) : Prepare :=
        { prepare with
          installs := prepare.installs ++
            [installStep package key present settings.pristineRoot prepare.checkout] }
      match inputs with
      | none => { service with prepares := service.prepares.set runId (named none false) }
      | some inputs =>
          let seen := service.store.seen repository package inputs now
          { service with
            store := seen.store
            prepares := service.prepares.set runId (named (some seen.key) seen.present) }

/-- The prepare unit has ended: every clone step's copy has, and the due keys are queued. -/
def endPrepare (service : Service) (runId : Text) (now : Int) (limits : QueueLimits) : Service :=
  match service.prepares.get? runId with
  | none => service
  | some prepare =>
      { service with
        store := (prepare.installs.filterMap InstallStep.cloned).foldl PristineStore.copyEnded
          service.store
        prepares := service.prepares.erase runId
      }.queueBuilds now limits

/-- The run is over. -/
def endRun (service : Service) (runId : Text) (limits : QueueLimits) : Service :=
  if hasRun service.queue.running runId && (service.prepares.get? runId).isNone then
    { service with queue := service.queue.finish runId }.pump limits
  else service

/-- The install unit of a started build has ended, by itself or with `clean@install`. -/
def endBuild (service : Service) (settings : ServiceSettings) (key : Text) (exit now : Int)
    (limits : QueueLimits) : Service :=
  match service.builds.find? fun build => build.key = key with
  | none => service
  | some build =>
      let builds := service.builds.filter fun other => other.key ≠ key
      let (store, exit) :=
        match build.doomed with
        | none => (service.store, failedExit)
        | some doomed => (service.store.undoom doomed, exit)
      match store.buildEnded key exit now settings.pristine.retryMs with
      -- The promise of the build rejects, and its entry stays among the running ones.
      | .error _ => { service with store, builds }
      | .ok store => { service with store, builds, queue := service.queue.finish key }.pump limits

end Service

/-! ## Runs of the service -/

/-- What can happen next. The limits are those of the moment: held run users and a closed
admission lower them. -/
inductive Action where
  | submit (runId session : Text) (limits : QueueLimits)
  | cancel (runId : Text)
  | startPrepare (runId checkout : Text)
  | namePackage (runId repository package : Text) (inputs : Option (List InstallInput)) (now : Int)
  | endPrepare (runId : Text) (now : Int) (limits : QueueLimits)
  | endRun (runId : Text) (limits : QueueLimits)
  | tick (node : Text) (now : Int) (limits : QueueLimits)
  | endBuild (key : Text) (exit now : Int) (limits : QueueLimits)
  | sweep (limits : QueueLimits)
  deriving DecidableEq, Repr

def Service.act (settings : ServiceSettings) (service : Service) : Action → Service
  | .submit runId session limits => service.submit runId session limits
  | .cancel runId => service.cancel runId
  | .startPrepare runId checkout => service.startPrepare runId checkout
  | .namePackage runId repository package inputs now =>
      service.namePackage settings runId repository package inputs now
  | .endPrepare runId now limits => service.endPrepare runId now limits
  | .endRun runId limits => service.endRun runId limits
  | .tick node now limits => service.pristineTick settings node now limits
  | .endBuild key exit now limits => service.endBuild settings key exit now limits
  | .sweep limits => service.pump limits

/-- The clone steps of one key over all the prepares that have not ended. -/
def openClones (prepares : Map Text Prepare) (key : Text) : Nat :=
  (prepares.map fun entry => (entry.2.installs.filterMap InstallStep.cloned).count key).sum

end Ccrc.Testbox
