import Ccrc.Testbox.PristineProperties
import Ccrc.Testbox.Service

/-! The invariant of the run manager over every run: what is in the store, in the queue
and being built, and what the open prepares copy. -/

set_option autoImplicit false

namespace Ccrc.Testbox

open Library PristineStore

/-! ## The clone steps of the open prepares -/

section Clones

variable {prepares : Map Text Prepare} {runId key : Text} {prepare : Prepare}

theorem openClones_set (found : prepares.get? runId = some prepare) (after : Prepare) (key : Text) :
    openClones (prepares.set runId after) key +
        (prepare.installs.filterMap InstallStep.cloned).count key =
      openClones prepares key + (after.installs.filterMap InstallStep.cloned).count key := by
  induction prepares with
  | nil => cases found
  | cons entry rest ih =>
      obtain ⟨held, value⟩ := entry
      unfold openClones at ih ⊢
      by_cases same : held = runId
      · rw [Map.get?, if_pos same] at found
        cases found
        rw [Map.set, if_pos same]
        simp only [List.map_cons, List.sum_cons]
        omega
      · rw [Map.get?, if_neg same] at found
        have tail := ih found
        rw [Map.set, if_neg same]
        simp only [List.map_cons, List.sum_cons]
        omega

/-- A step more in a prepare. -/
theorem openClones_named (found : prepares.get? runId = some prepare) (step : InstallStep)
    (key : Text) :
    openClones (prepares.set runId { prepare with installs := prepare.installs ++ [step] }) key =
      openClones prepares key + if step.cloned = some key then 1 else 0 := by
  have total := openClones_set found { prepare with installs := prepare.installs ++ [step] } key
  rw [List.filterMap_append, List.count_append] at total
  have last : (List.filterMap InstallStep.cloned [step]).count key =
      if step.cloned = some key then 1 else 0 := by
    cases copied : step.cloned with
    | none => simp [copied]
    | some held => simp [copied, List.count_singleton]
  omega

theorem openClones_started (absent : prepares.get? runId = none) (checkout key : Text) :
    openClones (prepares.set runId { checkout, installs := [] }) key = openClones prepares key := by
  rw [Map.set_of_absent _ absent]
  simp [openClones]

theorem openClones_ended (distinct : (prepares.map (·.1)).Nodup)
    (found : prepares.get? runId = some prepare) (key : Text) :
    openClones (prepares.erase runId) key +
        (prepare.installs.filterMap InstallStep.cloned).count key = openClones prepares key := by
  induction prepares with
  | nil => cases found
  | cons entry rest ih =>
      obtain ⟨held, value⟩ := entry
      have rest_distinct : (rest.map (·.1)).Nodup := (List.nodup_cons.mp distinct).2
      by_cases same : held = runId
      · rw [Map.get?, if_pos same] at found
        cases found
        subst same
        have absent : Map.get? held rest = none := by
          rw [← Option.not_isSome_iff_eq_none, ← Map.mem_keys_iff]
          exact (List.nodup_cons.mp distinct).1
        have gone : Map.erase held ((held, prepare) :: rest) = rest :=
          (List.filter_cons_of_neg (by simp)).trans (Map.erase_of_absent absent)
        rw [gone]
        simp only [openClones, List.map_cons, List.sum_cons]
        omega
      · rw [Map.get?, if_neg same] at found
        have tail := ih rest_distinct found
        have stays : Map.erase runId ((held, value) :: rest) =
            (held, value) :: Map.erase runId rest := List.filter_cons_of_pos (by simpa using same)
        rw [stays]
        simp only [openClones, List.map_cons, List.sum_cons] at tail ⊢
        omega

theorem installStep_cloned (package : Text) (key : Option Text) (present : Bool)
    (pristineRoot checkout : Text) :
    (installStep package key present pristineRoot checkout).cloned =
      if present then key else none := by
  cases key <;> cases present <;> rfl

end Clones

/-! ## The invariant -/

structure Kept (service : Service) : Prop where
  store : StoreKept (openClones service.prepares) service.store
  prepares : (service.prepares.map (·.1)).Nodup
  queue : QueueKept service.queue
  building : ∀ entry ∈ service.queue.entries, entry.kind = .pristine →
    service.store.isBuilding entry.id
  builds : (service.builds.map (·.key)).Sublist (service.queue.building.map (·.id))
  /-- What a unit is removing is still doomed. -/
  snapshot : ∀ build ∈ service.builds, ∀ doomed, build.doomed = some doomed →
    doomed ⊆ service.store.doomed
  /-- The directory of the key itself is gone before the build puts a new one there. -/
  own : ∀ build ∈ service.builds, ∀ doomed, build.doomed = some doomed →
    build.key ∈ service.store.doomed → build.key ∈ doomed
  queued : ∀ entry ∈ service.queued, entry.2 = some .missing ∨ entry.2 = some .failed

theorem start_kept (node platform : Text) (keys : List Text) (now : Int) :
    Kept (Service.start node platform keys now) where
  store := (adopt_kept (emptyStore_kept node platform) rfl keys now).1
  prepares := List.nodup_nil
  queue := emptyQueue_kept
  building := by
    intro entry member
    cases member
  builds := List.Sublist.refl _
  snapshot := by
    intro build member
    cases member
  own := by
    intro build member
    cases member
  queued := by
    intro entry member
    cases member

section Parts

variable {service : Service}

theorem Kept.oneBuild (kept : Kept service) : service.builds.length ≤ 1 := by
  have bound := kept.builds.length_le
  rw [List.length_map, List.length_map] at bound
  exact bound.trans kept.queue.one

/-- A build is of a running entry of the queue. -/
theorem Kept.running (kept : Kept service) {build : Build} (member : build ∈ service.builds) :
    ∃ entry ∈ service.queue.building, entry.id = build.key :=
  List.mem_map.mp (kept.builds.subset (List.mem_map_of_mem member))

theorem Kept.isBuilding (kept : Kept service) {build : Build} (member : build ∈ service.builds) :
    service.store.isBuilding build.key := by
  obtain ⟨entry, running, same⟩ := kept.running member
  obtain ⟨queued, kind⟩ := mem_entries_of_building running
  exact same ▸ kept.building entry queued kind

/-- The store and the prepares change; what is being built stays so, and no doomed key is
forgotten nor a key doomed that is being built. -/
theorem Kept.moves (kept : Kept service) {store : PristineStore} {prepares : Map Text Prepare}
    (stored : StoreKept (openClones prepares) store) (distinct : (prepares.map (·.1)).Nodup)
    (building : ∀ key, service.store.isBuilding key → store.isBuilding key)
    (grows : service.store.doomed ⊆ store.doomed)
    (fresh : ∀ key ∈ store.doomed, service.store.isBuilding key → key ∈ service.store.doomed) :
    Kept { service with store, prepares } where
  store := stored
  prepares := distinct
  queue := kept.queue
  building := fun entry member kind => building _ (kept.building entry member kind)
  builds := kept.builds
  snapshot := fun build member doomed held =>
    List.Subset.trans (kept.snapshot build member doomed held) grows
  own := fun build member doomed held isDoomed =>
    kept.own build member doomed held (fresh _ isDoomed (kept.isBuilding member))
  queued := kept.queued

/-- The queue changes, and with it no build that runs. -/
theorem Kept.requeue (kept : Kept service) {queue : QueueState} (queueKept : QueueKept queue)
    (queued : ∀ entry ∈ queue.entries, entry.kind = .pristine → entry ∈ service.queue.entries)
    (running : queue.building = service.queue.building) : Kept { service with queue } where
  store := kept.store
  prepares := kept.prepares
  queue := queueKept
  building := fun entry member kind => kept.building entry (queued entry member kind) kind
  builds := by
    rw [running]
    exact kept.builds
  snapshot := kept.snapshot
  own := kept.own
  queued := kept.queued

end Parts

/-! ## Steps -/

section Steps

variable {service : Service} {limits : QueueLimits}

theorem startBuild_key (store : PristineStore) (key : Text) : (startBuild store key).key = key := by
  unfold startBuild
  split <;> rfl

theorem startBuild_doomed {store : PristineStore} {key : Text} {doomed : List Text}
    (held : (startBuild store key).doomed = some doomed) : doomed = store.doomed := by
  unfold startBuild at held
  split at held
  next => cases held
  next =>
    dsimp only at held
    split at held
    next => cases held
    next => exact (Option.some.inj held).symm

/-- What a build started now removes is all that is doomed now. -/
theorem pump_kept (kept : Kept service) (limits : QueueLimits) : Kept (service.pump limits) where
  store := kept.store
  prepares := kept.prepares
  queue := kept.queue.admitWaiting
  building := fun entry member kind =>
    kept.building entry (admitWaiting_entries.subset member) kind
  builds := by
    have keys (started : List QueueEntry) :
        (started.map fun entry => startBuild service.store entry.id).map (·.key) =
          started.map (·.id) := by
      rw [List.map_map]
      exact List.map_congr_left fun entry _ => startBuild_key _ _
    simp only [Service.pump, List.map_append, keys, QueueState.building, admitWaiting_running,
      List.filter_append]
    exact kept.builds.append (List.Sublist.refl _)
  snapshot := by
    intro build member doomed held
    rcases List.mem_append.mp member with before | started
    · exact kept.snapshot build before doomed held
    · obtain ⟨entry, _, rfl⟩ := List.mem_map.mp started
      rw [startBuild_doomed held]
      exact List.Subset.refl _
  own := by
    intro build member doomed held isDoomed
    rcases List.mem_append.mp member with before | started
    · exact kept.own build before doomed held isDoomed
    · obtain ⟨entry, _, rfl⟩ := List.mem_map.mp started
      rw [startBuild_doomed held]
      exact isDoomed
  queued := kept.queued

theorem queueBuild_kept (kept : Kept service) {key : Text} (wanted : service.store.isWanted key) :
    Kept (service.queueBuild key) := by
  unfold Service.queueBuild
  cases queued : service.queue.enqueue
      { id := key, session := pristineSession, kind := .pristine } with
  | none => exact kept
  | some queue =>
      have stored := kept.moves (buildQueued_kept kept.store wanted) kept.prepares
        (fun _ => buildQueued_isBuilding key) (by rw [buildQueued_doomed]; exact List.Subset.refl _)
        (fun _ doomed _ => by rwa [buildQueued_doomed] at doomed)
      have running : queue.running = service.queue.running := by
        rw [(enqueue_some queued).2]
      refine
        { stored with
          queue := kept.queue.enqueue queued
          building := ?_
          builds := ?_
          queued := ?_ }
      · intro entry member kind
        rcases (mem_entries_enqueue queued).mp member with before | rfl
        · exact stored.building entry before kind
        · exact buildQueued_building wanted
      · simp only [QueueState.building, running]
        exact kept.builds
      · intro entry member
        rcases List.mem_append.mp member with before | added
        · exact kept.queued entry before
        · rw [List.mem_singleton] at added
          subst added
          obtain ⟨held, found, state⟩ := wanted
          rw [found]
          exact state.imp (congrArg some) (congrArg some)

theorem queueBuild_isWanted {key other : Text} (differs : key ≠ other)
    (wanted : service.store.isWanted other) : (service.queueBuild key).store.isWanted other := by
  unfold Service.queueBuild
  split
  next => exact wanted
  next => exact buildQueued_isWanted differs wanted

/-- A key stays wanted until the loop comes to it, since the keys before it are others. -/
theorem queueEach_kept {keys : List Text} (kept : Kept service) (distinct : keys.Nodup)
    (wanted : ∀ key ∈ keys, service.store.isWanted key) :
    Kept (keys.foldl Service.queueBuild service) := by
  induction keys generalizing service with
  | nil => exact kept
  | cons key keys ih =>
      obtain ⟨fresh, rest⟩ := List.nodup_cons.mp distinct
      refine ih (queueBuild_kept kept (wanted key List.mem_cons_self)) rest fun other member => ?_
      have differs : key ≠ other := fun same => fresh (same ▸ member)
      exact queueBuild_isWanted differs (wanted other (List.mem_cons_of_mem _ member))

theorem queueBuilds_kept (kept : Kept service) (now : Int) (limits : QueueLimits) :
    Kept (service.queueBuilds now limits) :=
  pump_kept (queueEach_kept kept (due_nodup kept.store now) fun _ => due_isWanted kept.store) limits

theorem pristineTick_kept (kept : Kept service) (settings : ServiceSettings) (node : Text)
    (now : Int) (limits : QueueLimits) : Kept (service.pristineTick settings node now limits) := by
  obtain ⟨renoded, doomed, building⟩ := nodeChanged_kept kept.store node now
  refine queueBuilds_kept (kept.moves (expire_kept renoded) kept.prepares ?_ ?_ ?_) now limits
  · intro key held
    exact expire_isBuilding renoded (building key held)
  · exact doomed ▸ subset_expire_doomed
  · intro key isDoomed held
    rcases mem_expire_doomed isDoomed with before | old
    · exact doomed ▸ before
    · obtain ⟨entry, found, present, _⟩ := mem_expired renoded old
      obtain ⟨other, here, state⟩ := building key held
      rw [found] at here
      cases here
      rw [present] at state
      cases state

theorem submit_kept (kept : Kept service) (runId session : Text) (limits : QueueLimits) :
    Kept (service.submit runId session limits) := by
  unfold Service.submit
  cases queued : service.queue.enqueue { id := runId, session, kind := .run } with
  | none => exact kept
  | some queue =>
      refine pump_kept (kept.requeue (kept.queue.enqueue queued) ?_ ?_) limits
      · intro entry member kind
        rcases (mem_entries_enqueue queued).mp member with before | rfl
        · exact before
        · cases kind
      · rw [(enqueue_some queued).2]
        rfl

theorem cancel_kept (kept : Kept service) (runId : Text) : Kept (service.cancel runId) := by
  unfold Service.cancel
  split
  next =>
    exact kept.requeue kept.queue.cancel (fun _ member _ => cancel_sublist.subset member) rfl
  next => exact kept

theorem startPrepare_kept (kept : Kept service) (runId checkout : Text) :
    Kept (service.startPrepare runId checkout) := by
  unfold Service.startPrepare
  split
  next allowed =>
    simp only [Bool.and_eq_true, Option.isNone_iff_eq_none] at allowed
    exact kept.moves (kept.store.congr (openClones_started allowed.2 checkout))
      (Map.distinct_set _ _ kept.prepares) (fun _ => id) (List.Subset.refl _) (fun _ doomed _ => doomed)
  next => exact kept

theorem namePackage_kept (kept : Kept service) (settings : ServiceSettings)
    (runId repository package : Text) (inputs : Option (List InstallInput)) (now : Int) :
    Kept (service.namePackage settings runId repository package inputs now) := by
  unfold Service.namePackage
  cases found : service.prepares.get? runId with
  | none => exact kept
  | some prepare =>
      cases inputs with
      | none =>
          refine kept.moves (kept.store.congr fun key => ?_) (Map.distinct_set _ _ kept.prepares)
            (fun _ => id) (List.Subset.refl _) (fun _ doomed _ => doomed)
          rw [openClones_named found, installStep_cloned]
          simp
      | some inputs =>
          refine kept.moves ((seen_kept kept.store).congr fun key => ?_)
            (Map.distinct_set _ _ kept.prepares)
            (fun _ => seen_isBuilding kept.store.distinct)
            (by rw [seen_doomed]; exact List.Subset.refl _)
            (fun _ doomed _ => by rwa [seen_doomed] at doomed)
          rw [openClones_named found, installStep_cloned]
          cases present : (service.store.seen repository package inputs now).present <;> simp

theorem endPrepare_kept (kept : Kept service) (runId : Text) (now : Int) (limits : QueueLimits) :
    Kept (service.endPrepare runId now limits) := by
  unfold Service.endPrepare
  cases found : service.prepares.get? runId with
  | none => exact kept
  | some prepare =>
      have ended := openClones_ended kept.prepares found
      refine queueBuilds_kept (kept.moves
        ((copiesEnded_kept kept.store fun key => ?_).congr fun key => ?_) ?_
        (fun _ => copiesEnded_isBuilding _) (by rw [copiesEnded_doomed]; exact List.Subset.refl _)
        (fun _ doomed _ => by rwa [copiesEnded_doomed] at doomed)) now limits
      · have total := ended key
        omega
      · have total := ended key
        omega
      · rw [Map.erase_keys]
        exact kept.prepares.filter _

theorem hasRun_mem {entries : List QueueEntry} {runId : Text}
    (runs : Service.hasRun entries runId = true) :
    ∃ entry ∈ entries, entry.id = runId ∧ entry.kind = .run := by
  simpa [Service.hasRun] using runs

theorem endRun_kept (kept : Kept service) (runId : Text) (limits : QueueLimits) :
    Kept (service.endRun runId limits) := by
  unfold Service.endRun
  split
  next allowed =>
    obtain ⟨run, running, isRun, kind⟩ := hasRun_mem (Bool.and_eq_true_iff.mp allowed).1
    -- The run's id is no key of a build: an id is in the queue once.
    have others : (service.queue.finish runId).building = service.queue.building := by
      rw [finish_building, List.filter_eq_self]
      intro entry building
      obtain ⟨queued, isBuild⟩ := mem_entries_of_building building
      refine decide_eq_true fun same => ?_
      have equal := kept.queue.same queued (List.mem_append_right _ running)
        (same.trans isRun.symm)
      rw [equal, kind] at isBuild
      cases isBuild
    exact pump_kept (kept.requeue kept.queue.finish
      (fun _ member _ => finish_sublist.subset member) others) limits
  next => exact kept

/-- One build runs at a time, so none is left when it has ended. -/
theorem Kept.builds_ended (kept : Kept service) {build : Build} (member : build ∈ service.builds) :
    (service.builds.filter fun other => other.key ≠ build.key) = [] := by
  refine List.filter_eq_nil_iff.mpr fun other isOther => ?_
  have same : other = build := by
    have one := kept.oneBuild
    match builds : service.builds, one with
    | [only], _ =>
        rw [builds, List.mem_singleton] at isOther member
        rw [isOther, member]
    | [], _ =>
        rw [builds] at member
        cases member
  simp [same]

theorem undoom_isBuilding {store : PristineStore} {key : Text} (keys : List Text)
    (building : store.isBuilding key) : (store.undoom keys).isBuilding key := building

/-- The end of a build, from the store its unit leaves. -/
theorem buildEnd_kept (kept : Kept service) {build : Build} (member : build ∈ service.builds)
    {store : PristineStore} (stored : StoreKept (openClones service.prepares) store)
    (building : ∀ key, service.store.isBuilding key → store.isBuilding key) {exit : Int}
    (clear : exit = 0 → build.key ∉ store.doomed) (now : Int) (retryMs : List Int)
    (limits : QueueLimits) :
    Kept
      (match store.buildEnded build.key exit now retryMs with
      | .error _ => { service with
          store, builds := service.builds.filter fun other => other.key ≠ build.key }
      | .ok store =>
          { service with
            store
            builds := service.builds.filter fun other => other.key ≠ build.key
            queue := service.queue.finish build.key }.pump limits) := by
  rw [kept.builds_ended member]
  split
  next =>
    exact
      { store := stored
        prepares := kept.prepares
        queue := kept.queue
        building := fun entry queued kind => building _ (kept.building entry queued kind)
        builds := List.nil_sublist _
        snapshot := fun _ none => by cases none
        own := fun _ none => by cases none
        queued := kept.queued }
  next after ended =>
    have isBuilding := building _ (kept.isBuilding member)
    obtain ⟨running, isRunning, isKey⟩ := kept.running member
    apply pump_kept
    refine
      { store := buildEnded_kept stored isBuilding clear ended
        prepares := kept.prepares
        queue := kept.queue.finish
        building := ?_
        builds := List.nil_sublist _
        snapshot := fun _ none => by cases none
        own := fun _ none => by cases none
        queued := kept.queued }
    intro entry queued kind
    have differs : build.key ≠ entry.id := by
      intro same
      have before := finish_sublist.subset queued
      have equal := kept.queue.same (mem_entries_of_building isRunning).1 before
        (isKey.trans same)
      subst equal
      rcases List.mem_append.mp queued with waits | runs
      · have twice := (List.nodup_append.mp (List.map_append ▸ kept.queue.distinct)).2.2
        exact twice _ (List.mem_map_of_mem waits) _
          (List.mem_map_of_mem (List.mem_of_mem_filter isRunning)) rfl
      · exact of_decide_eq_true (List.mem_filter.mp runs).2 same.symm
    exact buildEnded_isBuilding differs
      (building _ (kept.building entry (finish_sublist.subset queued) kind)) ended

theorem endBuild_kept (kept : Kept service) (settings : ServiceSettings) (key : Text)
    (exit now : Int) (limits : QueueLimits) :
    Kept (service.endBuild settings key exit now limits) := by
  unfold Service.endBuild
  cases found : service.builds.find? fun build => build.key = key with
  | none => exact kept
  | some build =>
      have member := List.mem_of_find?_eq_some found
      have same : build.key = key := by simpa using List.find?_some found
      subst same
      cases unit : build.doomed with
      | none =>
          simp only [unit]
          exact buildEnd_kept kept member kept.store (fun _ => id)
            (fun success => absurd success (by decide)) now settings.pristine.retryMs limits
      | some doomed =>
          simp only [unit]
          refine buildEnd_kept kept member (undoom_kept kept.store doomed)
            (fun _ => undoom_isBuilding doomed) (fun _ isDoomed => ?_) now
            settings.pristine.retryMs limits
          obtain ⟨before, remains⟩ := List.mem_filter.mp isDoomed
          have removed := kept.own build member doomed unit before
          simp [removed] at remains

theorem act_kept (kept : Kept service) (settings : ServiceSettings) (action : Action) :
    Kept (service.act settings action) := by
  cases action with
  | submit runId session limits => exact submit_kept kept runId session limits
  | cancel runId => exact cancel_kept kept runId
  | startPrepare runId checkout => exact startPrepare_kept kept runId checkout
  | namePackage runId repository package inputs now =>
      exact namePackage_kept kept settings runId repository package inputs now
  | endPrepare runId now limits => exact endPrepare_kept kept runId now limits
  | endRun runId limits => exact endRun_kept kept runId limits
  | tick node now limits => exact pristineTick_kept kept settings node now limits
  | endBuild key exit now limits => exact endBuild_kept kept settings key exit now limits
  | sweep limits => exact pump_kept kept limits

end Steps

/-! ## Runs -/

theorem run_kept (settings : ServiceSettings) (node platform : Text) (keys : List Text)
    (now : Int) (actions : List Action) :
    Kept (runFrom (Service.act settings) (Service.start node platform keys now) actions) :=
  @runFrom_invariant _ _ (Service.act settings) Kept
    (fun _ action kept => act_kept kept settings action) _ (start_kept node platform keys now)
    actions

/-- Over every run: a key that is present is not doomed; a key that a prepare copies is
present, not doomed and not being removed; `copying` counts the clone steps of the prepares
that have not ended; there is one entry a key; an id is in the queue once, and one build runs
at a time, of a key that is running there; a key in the queue is being built, and it was
missing or failed when it was queued. -/
theorem pristine_kept (settings : ServiceSettings) (node platform : Text) (keys : List Text)
    (now : Int) (actions : List Action) :
    let service := runFrom (Service.act settings) (Service.start node platform keys now) actions
    (∀ entry ∈ service.store.entries, entry.state = .present →
      entry.key ∉ service.store.doomed) ∧
    (∀ key, 0 < openClones service.prepares key →
      (∃ entry ∈ service.store.entries, entry.key = key ∧ entry.state = .present) ∧
        key ∉ service.store.doomed ∧
        ∀ build ∈ service.builds, ∀ doomed, build.doomed = some doomed → key ∉ doomed) ∧
    (∀ entry ∈ service.store.entries, entry.copying = openClones service.prepares entry.key) ∧
    (service.store.entries.map (·.key)).Nodup ∧
    (service.queue.entries.map (·.id)).Nodup ∧
    service.builds.length ≤ 1 ∧
    (∀ build ∈ service.builds, ∃ entry ∈ service.queue.running,
      entry.kind = .pristine ∧ entry.id = build.key) ∧
    (∀ queued ∈ service.queue.entries, queued.kind = .pristine →
      ∃ entry ∈ service.store.entries, entry.key = queued.id ∧ entry.state = .building) ∧
    ∀ queued ∈ service.queued, queued.2 = some .missing ∨ queued.2 = some .failed := by
  intro service
  have kept : Kept service := run_kept settings node platform keys now actions
  refine ⟨?_, ?_, ?_, kept.store.distinct, kept.queue.distinct, kept.oneBuild, ?_, ?_,
    kept.queued⟩
  · intro entry member
    exact kept.store.clear (kept.store.found member)
  · intro key copied
    have counted := kept.store.copying key
    cases found : service.store.find key with
    | none =>
        rw [copyingOf, found, Option.map_none, Option.getD_none] at counted
        omega
    | some entry =>
        rw [copyingOf, found, Option.map_some, Option.getD_some] at counted
        have present := kept.store.copied found (by omega)
        have clear := kept.store.clear found present
        obtain ⟨member, same⟩ := find_some found
        exact ⟨⟨entry, member, same, present⟩, clear, fun build isBuild doomed unit removed =>
          clear (kept.snapshot build isBuild doomed unit removed)⟩
  · intro entry member
    have counted := kept.store.copying entry.key
    rwa [copyingOf, kept.store.found member, Option.map_some, Option.getD_some] at counted
  · intro build member
    obtain ⟨entry, running, same⟩ := kept.running member
    obtain ⟨runs, kind⟩ := List.mem_filter.mp running
    exact ⟨entry, runs, of_decide_eq_true kind, same⟩
  · intro queued member kind
    obtain ⟨entry, found, state⟩ := kept.building queued member kind
    obtain ⟨isEntry, same⟩ := find_some found
    exact ⟨entry, isEntry, same, state⟩

end Ccrc.Testbox
