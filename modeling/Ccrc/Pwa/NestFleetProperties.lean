import Ccrc.Pwa.NestFleet

/-! A card neither loses nor repeats a row: each session, spawn, activity, worktree and unowned
item stands where it belongs and once, and a header counts what is under it. -/

set_option autoImplicit false

namespace Ccrc.Pwa

open Library Shared

/-! ## What a row shows -/

namespace FleetRow

def topSession? : FleetRow → Option FleetSession
  | .session .zero shown _ => some shown
  | .session .one _ _ | .pending _ _ | .activity _ _ | .lease _ _ _ | .unowned _
  | .delegationGroup _ _ => none

def pending? : FleetRow → Option RunSummary
  | .pending _ run => some run
  | .session _ _ _ | .activity _ _ | .lease _ _ _ | .unowned _ | .delegationGroup _ _ => none

def activity? : FleetRow → Option DelegationActivityWire
  | .activity shown _ => some shown
  | .session _ _ _ | .pending _ _ | .lease _ _ _ | .unowned _ | .delegationGroup _ _ => none

def lease? : FleetRow → Option DelegationLeaseWire
  | .lease shown _ _ => some shown
  | .session _ _ _ | .pending _ _ | .activity _ _ | .unowned _ | .delegationGroup _ _ => none

def unowned? : FleetRow → Option DelegationUnownedWire
  | .unowned item => some item
  | .session _ _ _ | .pending _ _ | .activity _ _ | .lease _ _ _ | .delegationGroup _ _ => none

/-- The chips that ride on a row. -/
def chips : FleetRow → List DelegationActivityWire
  | .session _ _ delegated => delegated.getD []
  | .pending _ _ | .activity _ _ | .lease _ _ _ | .unowned _ | .delegationGroup _ _ => []

/-- The group a row sits in. -/
def group? : FleetRow → Option DelegationGroupKind
  | .activity _ group | .lease _ _ group => group
  | .unowned _ => some .unowned
  | .session _ _ _ | .pending _ _ | .delegationGroup _ _ => none

/-- A session or a spawn under a run's owner: the run names the two. -/
def NamedBy (runs : List RunSummary) (owner : FleetSession) : FleetRow → Prop
  | .session _ shown _ =>
      ∃ run ∈ runs, run.claimedBy = some owner.id ∧ run.sessionId = some shown.id
  | .pending _ run => run ∈ runs ∧ run.claimedBy = some owner.id
  | .activity _ _ | .lease _ _ _ | .unowned _ | .delegationGroup _ _ => True

end FleetRow

/-- An edge that is drawn: its owner is listed, and so is its worker, or it is a spawn. -/
def IsDrawn (sessions : List FleetSession) (run : RunSummary) : Prop :=
  let listed (id : Option Text) := ∃ session ∈ sessions, id = some session.id
  listed run.claimedBy ∧
    (listed run.sessionId ∧ run.claimedBy ≠ run.sessionId ∨
      isDispatchPending run = true ∧ ¬listed run.sessionId)

/-- The rows of a card, against what it was handed. -/
structure IsNested (sessions : List FleetSession) (runs : List RunSummary)
    (slice : CardDelegation) (rows : List FleetRow) : Prop where
  sessionsOnce : (rows.filterMap FleetRow.session?).Perm sessions
  topsInOrder : (rows.filterMap FleetRow.topSession?).Sublist sessions
  underOwner : ∀ before row, before ++ [row] <+: rows → row.depth = .one →
    row.session?.isSome ∨ row.pending?.isSome →
    ∃ first owner delegated between, before = first ++ .session .zero owner delegated :: between ∧
      (∀ other ∈ between, other.depth = .one) ∧ row.NamedBy runs owner
  ownersOnTop : ∀ run ∈ runs, IsDrawn sessions run → ∀ row ∈ rows, ∀ session,
    row.session? = some session → run.claimedBy = some session.id → row.depth = .zero
  spawnsOnce : (rows.filterMap FleetRow.pending?).Perm (runs.filter fun run =>
    isDispatchPending run && decide (∀ session ∈ sessions, run.sessionId ≠ some session.id))
  activitiesOnce : (rows.filterMap FleetRow.activity? ++ rows.flatMap FleetRow.chips).Perm
    slice.activities
  chipsOnParent : ∀ row ∈ rows, ∀ session, row.session? = some session →
    ∀ activity ∈ row.chips, activity.parentId = session.id
  leasesOnce : (rows.filterMap FleetRow.lease?).Perm (slice.leases.filter fun lease =>
    decide (lease.canonicalPath ∉ sessions.map (·.workdir)))
  unownedOnce : rows.filterMap FleetRow.unowned? = slice.unowned
  counts : ∀ group count after, .delegationGroup group count :: after <:+ rows →
    (after.takeWhile fun row => row.depth == .one).length = count ∧
      ∀ row ∈ after.takeWhile (fun row => row.depth == .one), row.group? = some group

/-! ## The programme's plan -/

/-- The sessions that stand on top, where the children are given. -/
def topsOf (sessions : List FleetSession) (children : List (Text × FleetSession)) :
    List FleetSession :=
  sessions.filter fun session => session.id ∉ children.map (·.2.id)

/-- Where the runs of a card put its sessions and spawns. -/
structure CardPlan (sessions : List FleetSession) (runs : List RunSummary)
    (children : List (Text × FleetSession)) (spawns : List (Text × RunSummary))
    (orphans : List RunSummary) : Prop where
  childListed : ∀ child ∈ children, child.2 ∈ sessions
  childOnce : (children.map (·.2.id)).Nodup
  childNamed : ∀ child ∈ children,
    ∃ run ∈ runs, run.claimedBy = some child.1 ∧ run.sessionId = some child.2.id
  childUnderTop : ∀ child ∈ children, child.1 ∈ (topsOf sessions children).map (·.id)
  spawnNamed : ∀ spawn ∈ spawns, spawn.2 ∈ runs ∧ spawn.2.claimedBy = some spawn.1
  spawnUnderTop : ∀ spawn ∈ spawns, spawn.1 ∈ (topsOf sessions children).map (·.id)
  spawnsOnce : (spawns.map (·.2) ++ orphans).Perm (runs.filter fun run =>
    isDispatchPending run && decide (∀ session ∈ sessions, run.sessionId ≠ some session.id))
  ownersOnTop : ∀ run ∈ runs, IsDrawn sessions run → ∀ child ∈ children,
    run.claimedBy ≠ some child.2.id

section Plan

variable {sessions : List FleetSession} {runs : List RunSummary}

theorem sessionsById_get? (distinct : (sessions.map (·.id)).Nodup) {id : Text}
    {session : FleetSession} :
    (sessionsById sessions).get? id = some session ↔ session ∈ sessions ∧ session.id = id := by
  have keys : (sessions.map fun session => (session.id, session)).map (·.1) =
      sessions.map (·.id) := by
    rw [List.map_map]
    rfl
  rw [sessionsById, Map.ofEntries_of_nodup (keys ▸ distinct)]
  constructor
  · intro found
    obtain ⟨other, member, same⟩ := List.mem_map.mp (Map.mem_of_get? found)
    cases same
    exact ⟨member, rfl⟩
  · rintro ⟨member, rfl⟩
    exact Map.get?_of_mem (keys ▸ distinct) (List.mem_map.mpr ⟨session, member, rfl⟩)

theorem onList_iff (distinct : (sessions.map (·.id)).Nodup) {id : Option Text} :
    onList (sessionsById sessions) id = true ↔ ∃ session ∈ sessions, id = some session.id := by
  cases id with
  | none => simp [onList]
  | some id =>
      rw [onList, Option.any_some, Option.isSome_iff_exists]
      simp only [sessionsById_get? distinct, Option.some.injEq]
      exact exists_congr fun session => and_congr_right fun _ => eq_comm

theorem mem_sortBy {α : Type} {compare : α → α → Int} {items : List α} {item : α} :
    item ∈ sortBy compare items ↔ item ∈ items := List.mem_mergeSort

theorem sortBy_perm {α : Type} (compare : α → α → Int) (items : List α) :
    (sortBy compare items).Perm items := List.mergeSort_perm items _

theorem mem_settledRuns (distinct : (sessions.map (·.id)).Nodup) {run : RunSummary} :
    run ∈ settledRuns (sessionsById sessions) runs ↔ run ∈ runs ∧
      (∃ session ∈ sessions, run.sessionId = some session.id) ∧
      (∃ session ∈ sessions, run.claimedBy = some session.id) ∧
      run.claimedBy ≠ run.sessionId := by
  rw [settledRuns, mem_sortBy, List.mem_filter, Bool.and_eq_true, Bool.and_eq_true,
    onList_iff distinct, onList_iff distinct, bne_iff_ne, and_assoc]

theorem mem_pendingRuns (distinct : (sessions.map (·.id)).Nodup) {run : RunSummary} :
    run ∈ pendingRuns (sessionsById sessions) runs ↔ run ∈ runs ∧
      isDispatchPending run = true ∧ ¬∃ session ∈ sessions, run.sessionId = some session.id := by
  rw [pendingRuns, mem_sortBy, List.mem_filter, Bool.and_eq_true, Bool.not_eq_true',
    ← Bool.not_eq_true, onList_iff distinct]

/-- A session that is placed under an owner: a run names the two, and it owns no edge. -/
def PlacedBy (byId : Map Text FleetSession) (parents placed : List Text)
    (settled : List RunSummary) (child : Text × FleetSession) : Prop :=
  ∃ run ∈ settled, ∃ id, run.claimedBy = some child.1 ∧ run.sessionId = some id ∧
    byId.get? id = some child.2 ∧ id ∉ parents ∧ id ∉ placed

theorem PlacedBy.later {byId : Map Text FleetSession} {parents placed more : List Text}
    {run : RunSummary} {rest : List RunSummary} {child : Text × FleetSession}
    (named : PlacedBy byId parents more rest child) (kept : placed ⊆ more) :
    PlacedBy byId parents placed (run :: rest) child := by
  obtain ⟨other, isRest, id, isOwner, isId, found, noParent, fresh⟩ := named
  exact ⟨other, List.mem_cons_of_mem _ isRest, id, isOwner, isId, found, noParent,
    fun held => fresh (kept held)⟩

theorem mem_placeSettled {byId : Map Text FleetSession} {parents placed : List Text}
    {settled : List RunSummary} {child : Text × FleetSession}
    (member : child ∈ placeSettled byId parents placed settled) :
    PlacedBy byId parents placed settled child := by
  induction settled generalizing placed with
  | nil => cases member
  | cons run rest ih =>
      have later (among : child ∈ placeSettled byId parents placed rest) :
          PlacedBy byId parents placed (run :: rest) child :=
        (ih among).later (List.Subset.refl _)
      rw [placeSettled] at member
      split at member
      next owner id isOwner isId =>
        split at member
        next => exact later member
        next free =>
          rw [not_or] at free
          split at member
          next session found =>
            cases List.mem_cons.mp member with
            | inl here =>
                subst here
                exact ⟨run, List.mem_cons_self, id, isOwner, isId, found, free.1, free.2⟩
            | inr more => exact (ih more).later (List.subset_cons_self _ _)
          next => exact later member
      next => exact later member

theorem placeSettled_once {byId : Map Text FleetSession} {parents placed : List Text}
    {settled : List RunSummary}
    (keyed : ∀ id session, byId.get? id = some session → session.id = id) :
    ((placeSettled byId parents placed settled).map (·.2.id)).Nodup := by
  induction settled generalizing placed with
  | nil => exact List.nodup_nil
  | cons run rest ih =>
      rw [placeSettled]
      split
      next owner id isOwner isId =>
        split
        next => exact ih
        next =>
          split
          next session found =>
            rw [List.map_cons, List.nodup_cons]
            refine ⟨fun again => ?_, ih⟩
            obtain ⟨child, member, same⟩ := List.mem_map.mp again
            obtain ⟨other, -, otherId, -, -, isChild, -, fresh⟩ := mem_placeSettled member
            refine fresh ?_
            rw [← keyed otherId child.2 isChild, same, keyed id session found]
            exact List.mem_cons_self
          next => exact ih
      next => exact ih

theorem mem_parentsOf {byId : Map Text FleetSession} {settled pending : List RunSummary}
    {owner : Text} : owner ∈ parentsOf byId settled pending ↔
      (∃ run ∈ settled, run.claimedBy = some owner) ∨
        ∃ run ∈ pending, onList byId run.claimedBy = true ∧ run.claimedBy = some owner := by
  rw [parentsOf, List.mem_append, List.mem_filterMap, List.mem_filterMap]
  refine or_congr Iff.rfl (exists_congr fun run => ?_)
  rw [List.mem_filter, and_assoc]

theorem placePending_runs (byId : Map Text FleetSession) (pending : List RunSummary) :
    (placePending byId pending).map (·.2) = pending.filter fun run => onList byId run.claimedBy := by
  induction pending with
  | nil => rfl
  | cons run rest ih =>
      rw [placePending] at ih ⊢
      rw [List.filterMap_cons, List.filter_cons]
      by_cases listed : onList byId run.claimedBy = true
      · rw [if_pos listed, if_pos listed]
        cases isOwner : run.claimedBy with
        | none =>
            rw [isOwner] at listed
            cases listed
        | some owner => simp only [Option.map_some, List.map_cons, ih]
      · rw [if_neg listed, if_neg listed]
        exact ih

/-- The children, the spawns and the spawns without an owner that a card's runs make. -/
def cardChildren (sessions : List FleetSession) (runs : List RunSummary) :
    List (Text × FleetSession) :=
  let byId := sessionsById sessions
  placeSettled byId (parentsOf byId (settledRuns byId runs) (pendingRuns byId runs)) []
    (settledRuns byId runs)

def cardSpawns (sessions : List FleetSession) (runs : List RunSummary) :
    List (Text × RunSummary) :=
  placePending (sessionsById sessions) (pendingRuns (sessionsById sessions) runs)

def orphanSpawns (sessions : List FleetSession) (runs : List RunSummary) : List RunSummary :=
  (pendingRuns (sessionsById sessions) runs).filter fun run =>
    !onList (sessionsById sessions) run.claimedBy

/-- A drawn edge makes its owner a parent. -/
theorem mem_parentsOf_of_drawn (distinct : (sessions.map (·.id)).Nodup) {run : RunSummary}
    (member : run ∈ runs) (drawn : IsDrawn sessions run) {owner : Text}
    (isOwner : run.claimedBy = some owner) :
    owner ∈ parentsOf (sessionsById sessions) (settledRuns (sessionsById sessions) runs)
      (pendingRuns (sessionsById sessions) runs) := by
  refine mem_parentsOf.mpr ?_
  cases drawn.2 with
  | inl both =>
      exact .inl ⟨run, (mem_settledRuns distinct).mpr ⟨member, both.1, drawn.1, both.2⟩, isOwner⟩
  | inr spawn =>
      exact .inr ⟨run, (mem_pendingRuns distinct).mpr ⟨member, spawn.1, spawn.2⟩,
        (onList_iff distinct).mpr drawn.1, isOwner⟩

/-- A child is a listed session that a settled run names, and no parent. -/
theorem cardChild_spec (distinct : (sessions.map (·.id)).Nodup) {child : Text × FleetSession}
    (member : child ∈ cardChildren sessions runs) :
    child.2 ∈ sessions ∧
      (∃ run ∈ settledRuns (sessionsById sessions) runs,
        run.claimedBy = some child.1 ∧ run.sessionId = some child.2.id) ∧
      child.2.id ∉ parentsOf (sessionsById sessions) (settledRuns (sessionsById sessions) runs)
        (pendingRuns (sessionsById sessions) runs) := by
  obtain ⟨run, isSettled, id, isOwner, isId, found, noParent, -⟩ := mem_placeSettled member
  obtain ⟨listed, rfl⟩ := (sessionsById_get? distinct).mp found
  exact ⟨listed, ⟨run, isSettled, isOwner, isId⟩, noParent⟩

/-- A listed parent stands on top. -/
theorem top_of_parent (distinct : (sessions.map (·.id)).Nodup) {owner : Text}
    (parent : owner ∈ parentsOf (sessionsById sessions) (settledRuns (sessionsById sessions) runs)
      (pendingRuns (sessionsById sessions) runs))
    (listed : ∃ session ∈ sessions, some owner = some session.id) :
    owner ∈ (topsOf sessions (cardChildren sessions runs)).map (·.id) := by
  obtain ⟨session, isListed, same⟩ := listed
  cases same
  refine List.mem_map.mpr ⟨session, List.mem_filter.mpr ⟨isListed, decide_eq_true ?_⟩, rfl⟩
  intro isChild
  obtain ⟨child, member, same⟩ := List.mem_map.mp isChild
  exact (cardChild_spec distinct member).2.2 (same ▸ parent)

theorem cardPlan (distinct : (sessions.map (·.id)).Nodup) :
    CardPlan sessions runs (cardChildren sessions runs) (cardSpawns sessions runs)
      (orphanSpawns sessions runs) where
  childListed child member := (cardChild_spec distinct member).1
  childOnce := placeSettled_once fun id session found =>
    ((sessionsById_get? distinct).mp found).2
  childNamed child member := by
    obtain ⟨-, ⟨run, isSettled, facts⟩, -⟩ := cardChild_spec distinct member
    exact ⟨run, ((mem_settledRuns distinct).mp isSettled).1, facts⟩
  childUnderTop child member := by
    obtain ⟨-, ⟨run, isSettled, isOwner, -⟩, -⟩ := cardChild_spec distinct member
    have facts := (mem_settledRuns distinct).mp isSettled
    exact top_of_parent distinct (mem_parentsOf.mpr (.inl ⟨run, isSettled, isOwner⟩))
      (isOwner ▸ facts.2.2.1)
  spawnNamed spawn member := by
    obtain ⟨run, isPending, pushed⟩ := List.mem_filterMap.mp member
    split at pushed
    next =>
      obtain ⟨owner, isOwner, rfl⟩ := Option.map_eq_some_iff.mp pushed
      exact ⟨((mem_pendingRuns distinct).mp isPending).1, isOwner⟩
    next => cases pushed
  spawnUnderTop spawn member := by
    obtain ⟨run, isPending, pushed⟩ := List.mem_filterMap.mp member
    split at pushed
    next listed =>
      obtain ⟨owner, isOwner, rfl⟩ := Option.map_eq_some_iff.mp pushed
      exact top_of_parent distinct
        (mem_parentsOf.mpr (.inr ⟨run, isPending, listed, isOwner⟩))
        (isOwner ▸ (onList_iff distinct).mp listed)
    next => cases pushed
  spawnsOnce := by
    rw [cardSpawns, placePending_runs, orphanSpawns]
    refine (List.filter_append_perm _ _).trans ((sortBy_perm _ _).trans ?_)
    refine List.Perm.of_eq (List.filter_congr fun run _ => ?_)
    refine congrArg _ ?_
    rw [Bool.eq_iff_iff, Bool.not_eq_true', ← Bool.not_eq_true, onList_iff distinct,
      decide_eq_true_eq]
    push Not
    rfl
  ownersOnTop run member drawn child isChild same :=
    (cardChild_spec distinct isChild).2.2 (mem_parentsOf_of_drawn distinct member drawn same)

end Plan

/-! ## The rows laid out -/

/-- Each top session with what stands under it. -/
def laidOut (tops : List FleetSession) (top : FleetSession → FleetRow)
    (body : FleetSession → List FleetRow) : List FleetRow :=
  tops.flatMap fun session => top session :: body session

theorem groupOf_map {ν μ : Type} (change : ν → μ) (pushes : List (Text × ν)) (key : Text) :
    groupOf (pushes.map fun (key, value) => (key, change value)) key =
      (groupOf pushes key).map change := by
  rw [groupOf, groupOf, List.filter_map, List.map_map, List.map_map]
  rfl

/-- The children and spawns under a session. -/
def kidRows (children : List (Text × FleetSession)) (spawns : List (Text × RunSummary))
    (session : FleetSession) : List FleetRow :=
  (groupOf children session.id).map (fun child => .session .one child none) ++
    (groupOf spawns session.id).map (.pending .one)

theorem kidRows_depth {children : List (Text × FleetSession)} {spawns : List (Text × RunSummary)}
    {session : FleetSession} {row : FleetRow} (member : row ∈ kidRows children spawns session) :
    row.depth = .one := by
  cases List.mem_append.mp member with
  | inl child =>
      obtain ⟨_, -, rfl⟩ := List.mem_map.mp child
      rfl
  | inr spawn =>
      obtain ⟨_, -, rfl⟩ := List.mem_map.mp spawn
      rfl

theorem programRows_eq (sessions : List FleetSession) (runs : List RunSummary) :
    programRows sessions runs =
      laidOut (topsOf sessions (cardChildren sessions runs)) (fun session =>
          .session .zero session none)
        (kidRows (cardChildren sessions runs) (cardSpawns sessions runs)) ++
      (orphanSpawns sessions runs).map (.pending .zero) := by
  unfold programRows
  simp only [Map.listOf_pushAll]
  refine congrArg (· ++ _) (List.flatMap_congr fun session _ => ?_)
  rw [kidRows, ← groupOf_map, ← groupOf_map]
  rfl

section Spliced

variable (children : DelegationChildren)

theorem spliced_one {row : FleetRow} (opened : Option Text) (rest : List FleetRow)
    (depth : row.depth = .one) :
    spliced children opened (row :: rest) =
      withChips children row :: spliced children opened rest := by
  rw [spliced]
  simp only [depth, reduceCtorEq, if_false, List.nil_append]

theorem spliced_kids (opened : Option Text) (kids rest : List FleetRow)
    (depth : ∀ row ∈ kids, row.depth = .one) :
    spliced children opened (kids ++ rest) =
      kids.map (withChips children) ++ spliced children opened rest := by
  induction kids with
  | nil => rfl
  | cons row kids ih =>
      rw [List.cons_append, spliced_one children opened _ (depth row List.mem_cons_self),
        ih fun other member => depth other (List.mem_cons_of_mem _ member), List.map_cons,
        List.cons_append]

theorem spliced_orphans (opened : Option Text) (orphans : List RunSummary) :
    spliced children opened (orphans.map (.pending .zero)) =
      closing children opened ++ orphans.map (.pending .zero) := by
  induction orphans generalizing opened with
  | nil => exact (List.append_nil _).symm
  | cons run rest ih =>
      rw [List.map_cons, spliced]
      simp only [FleetRow.depth, if_true, FleetRow.session?, Option.map_none]
      rw [ih none]
      rfl

/-- The delegated rows of each session come after its last child. -/
theorem spliced_laidOut (opened : Option Text) (tops : List FleetSession)
    (kids : FleetSession → List FleetRow) (orphans : List RunSummary)
    (depth : ∀ session, ∀ row ∈ kids session, row.depth = .one) :
    spliced children opened
        (laidOut tops (fun session => .session .zero session none) kids ++
          orphans.map (.pending .zero)) =
      closing children opened ++
        laidOut tops (fun session => withChips children (.session .zero session none))
          (fun session => (kids session).map (withChips children) ++
            children.under.listOf session.id) ++
        orphans.map (.pending .zero) := by
  induction tops generalizing opened with
  | nil => simpa [laidOut] using spliced_orphans children opened orphans
  | cons session rest ih =>
      have unfolded (top : FleetSession → FleetRow) (body : FleetSession → List FleetRow) :
          laidOut (session :: rest) top body =
            top session :: (body session ++ laidOut rest top body) := by
        rw [laidOut, List.flatMap_cons, List.cons_append]
        rfl
      rw [unfolded, unfolded, List.cons_append, spliced]
      simp only [FleetRow.depth, if_true, FleetRow.session?, Option.map_some]
      rw [List.append_assoc, spliced_kids children _ _ _ (depth session), ih]
      simp only [closing, List.append_assoc, List.cons_append]

end Spliced

/-! ## Depths -/

section Depths

variable {sessions : List FleetSession} {runs : List RunSummary}
  {children : List (Text × FleetSession)} {spawns : List (Text × RunSummary)}
  {orphans : List RunSummary}

theorem kidRows_sessions (session : FleetSession) :
    (kidRows children spawns session).filterMap FleetRow.session? = groupOf children session.id := by
  have noSpawns : ((groupOf spawns session.id).map (FleetRow.pending .one)).filterMap
      FleetRow.session? = [] := by
    rw [List.filterMap_map]
    exact List.filterMap_eq_nil_iff.mpr fun _ _ => rfl
  rw [kidRows, List.filterMap_append, noSpawns, List.append_nil, List.filterMap_map]
  exact List.filterMap_some

theorem topsOf_nodup (distinct : (sessions.map (·.id)).Nodup) :
    ((topsOf sessions children).map (·.id)).Nodup :=
  distinct.sublist (List.filter_sublist.map _)

/-- Each session is a top or a child, and once. -/
theorem CardPlan.sessions_perm (plan : CardPlan sessions runs children spawns orphans)
    (distinct : (sessions.map (·.id)).Nodup) :
    ((topsOf sessions children).flatMap fun session =>
      session :: groupOf children session.id).Perm sessions := by
  have split := List.flatMap_append_perm (topsOf sessions children) (fun session => [session])
    fun session => groupOf children session.id
  refine split.symm.trans ?_
  have grouped : ((topsOf sessions children).flatMap fun session =>
      groupOf children session.id).Perm (children.map (·.2)) := by
    have laid := flatMap_groupOf_perm (@topsOf_nodup sessions children distinct)
      plan.childUnderTop
    rwa [List.flatMap_map] at laid
  rw [List.flatMap_singleton']
  refine (grouped.append_left _).trans ?_
  have distinctTops : (topsOf sessions children).Nodup := (topsOf_nodup distinct).of_map
  have distinctChildren : (children.map (·.2)).Nodup := by
    have once := plan.childOnce
    rw [show (fun child : Text × FleetSession => child.2.id) = (·.id) ∘ (·.2) from rfl,
      ← List.map_map] at once
    exact once.of_map
  have apart : (topsOf sessions children ++ children.map (·.2)).Nodup := by
    refine List.nodup_append.mpr ⟨distinctTops, distinctChildren, fun top isTop child isChild same => ?_⟩
    obtain ⟨pair, member, rfl⟩ := List.mem_map.mp isChild
    refine of_decide_eq_true (List.mem_filter.mp isTop).2 ?_
    exact List.mem_map.mpr ⟨pair, member, congrArg (·.id) same.symm⟩
  refine (List.perm_ext_iff_of_nodup apart distinct.of_map).mpr fun session => ?_
  rw [List.mem_append]
  constructor
  · intro either
    cases either with
    | inl top => exact (List.mem_filter.mp top).1
    | inr child =>
        obtain ⟨pair, member, rfl⟩ := List.mem_map.mp child
        exact plan.childListed pair member
  · intro listed
    by_cases child : session.id ∈ children.map (·.2.id)
    · obtain ⟨pair, member, same⟩ := List.mem_map.mp child
      refine .inr (List.mem_map.mpr ⟨pair, member, ?_⟩)
      exact List.inj_on_of_nodup_map distinct (plan.childListed pair member) listed same
    · exact .inl (List.mem_filter.mpr ⟨listed, decide_eq_true child⟩)

/-- The rows of a card without its delegated work. -/
abbrev planRows (sessions : List FleetSession) (children : List (Text × FleetSession))
    (spawns : List (Text × RunSummary)) (orphans : List RunSummary) : List FleetRow :=
  laidOut (topsOf sessions children) (fun session => .session .zero session none)
    (kidRows children spawns) ++ orphans.map (.pending .zero)

theorem depthEntries_planRows : depthEntries (planRows sessions children spawns orphans) =
    (topsOf sessions children).flatMap fun session => (session.id, RowDepth.zero) ::
      (groupOf children session.id).map fun child => (child.id, RowDepth.one) := by
  rw [depthEntries, List.filterMap_append, laidOut, List.filterMap_flatMap]
  have noOrphans : (orphans.map (FleetRow.pending .zero)).filterMap (fun row =>
      row.session?.map fun session => (session.id, row.depth)) = [] := by
    rw [List.filterMap_map]
    exact List.filterMap_eq_nil_iff.mpr fun _ _ => rfl
  rw [noOrphans, List.append_nil]
  refine List.flatMap_congr fun session _ => ?_
  have noSpawns : ((groupOf spawns session.id).map (FleetRow.pending .one)).filterMap (fun row =>
      row.session?.map fun session => (session.id, row.depth)) = [] := by
    rw [List.filterMap_map]
    exact List.filterMap_eq_nil_iff.mpr fun _ _ => rfl
  rw [List.filterMap_cons, kidRows, List.filterMap_append, noSpawns, List.append_nil,
    List.filterMap_map]
  exact congrArg _ (congrFun List.filterMap_eq_map _)

theorem bracketEntries_kids (owner : Text) (kids rest : List FleetRow)
    (depth : ∀ row ∈ kids, row.depth = .one) :
    bracketEntries (some owner) (kids ++ rest) =
      (kids.filterMap FleetRow.session?).map (fun child => (child.id, owner)) ++
        bracketEntries (some owner) rest := by
  induction kids with
  | nil => rfl
  | cons row kids ih =>
      have more := ih fun other member => depth other (List.mem_cons_of_mem _ member)
      have here := depth row List.mem_cons_self
      rw [List.cons_append, bracketEntries.eq_def]
      cases shown : row.session? with
      | none =>
          simp only [shown, List.filterMap_cons_none shown]
          exact more
      | some session =>
          simp only [shown, here, List.filterMap_cons_some shown]
          rw [List.map_cons, List.cons_append, ← more]

theorem bracketEntries_planRows (top : Option Text) :
    bracketEntries top (planRows sessions children spawns orphans) =
      (topsOf sessions children).flatMap fun session =>
        (groupOf children session.id).map fun child => (child.id, session.id) := by
  unfold planRows
  generalize topsOf sessions children = tops
  induction tops generalizing top with
  | nil =>
      rw [laidOut, List.flatMap_nil, List.flatMap_nil, List.nil_append]
      induction orphans with
      | nil => rfl
      | cons run rest ih => exact ih
  | cons session rest ih =>
      rw [laidOut, List.flatMap_cons, List.cons_append, List.cons_append, bracketEntries.eq_def,
        List.append_assoc]
      simp only [FleetRow.session?, FleetRow.depth]
      rw [bracketEntries_kids session.id _ _ fun row => kidRows_depth, kidRows_sessions,
        List.flatMap_cons]
      exact congrArg _ (ih _)

theorem CardPlan.depthKeys_perm (plan : CardPlan sessions runs children spawns orphans)
    (distinct : (sessions.map (·.id)).Nodup) :
    ((depthEntries (planRows sessions children spawns orphans)).map (·.1)).Perm
      (sessions.map (·.id)) := by
  rw [depthEntries_planRows, List.map_flatMap]
  have laid := (plan.sessions_perm distinct).map (·.id)
  rw [List.map_flatMap] at laid
  refine (List.Perm.of_eq (List.flatMap_congr fun session _ => ?_)).trans laid
  rw [List.map_cons, List.map_map, List.map_cons]
  rfl

theorem CardPlan.depth_get? (plan : CardPlan sessions runs children spawns orphans)
    (distinct : (sessions.map (·.id)).Nodup) {id : Text} {depth : RowDepth}
    (found : (depthOf (planRows sessions children spawns orphans)).depth.get? id = some depth) :
    (id, depth) ∈ depthEntries (planRows sessions children spawns orphans) := by
  have keys := (plan.depthKeys_perm distinct).nodup_iff.mpr distinct
  rw [depthOf] at found
  simp only [Map.ofEntries_of_nodup keys] at found
  exact Map.mem_of_get? found

/-- A session with a depth is listed. -/
theorem CardPlan.listed_of_depth (plan : CardPlan sessions runs children spawns orphans)
    (distinct : (sessions.map (·.id)).Nodup) {id : Text} {depth : RowDepth}
    (found : (depthOf (planRows sessions children spawns orphans)).depth.get? id = some depth) :
    id ∈ sessions.map (·.id) :=
  (plan.depthKeys_perm distinct).mem_iff.mp
    (List.mem_map.mpr ⟨(id, depth), plan.depth_get? distinct found, rfl⟩)

theorem CardPlan.top_of_depth (plan : CardPlan sessions runs children spawns orphans)
    (distinct : (sessions.map (·.id)).Nodup) {id : Text}
    (found : (depthOf (planRows sessions children spawns orphans)).depth.get? id = some .zero) :
    id ∈ (topsOf sessions children).map (·.id) := by
  have entry := plan.depth_get? distinct found
  rw [depthEntries_planRows] at entry
  obtain ⟨session, isTop, here⟩ := List.mem_flatMap.mp entry
  cases List.mem_cons.mp here with
  | inl same =>
      cases same
      exact List.mem_map_of_mem isTop
  | inr child =>
      obtain ⟨_, _, same⟩ := List.mem_map.mp child
      cases same

/-- A session below another one has it as its bracket parent, a session on top. -/
theorem CardPlan.bracket_of_depth (plan : CardPlan sessions runs children spawns orphans)
    (distinct : (sessions.map (·.id)).Nodup) {id : Text}
    (found : (depthOf (planRows sessions children spawns orphans)).depth.get? id = some .one) :
    ∃ owner ∈ (topsOf sessions children).map (·.id),
      (depthOf (planRows sessions children spawns orphans)).bracket.get? id = some owner := by
  have entry := plan.depth_get? distinct found
  rw [depthEntries_planRows] at entry
  obtain ⟨session, isTop, here⟩ := List.mem_flatMap.mp entry
  cases List.mem_cons.mp here with
  | inl same => cases same
  | inr below =>
      obtain ⟨child, isChild, same⟩ := List.mem_map.mp below
      cases same
      refine ⟨session.id, List.mem_map_of_mem isTop, ?_⟩
      have keys : (bracketEntries none (planRows sessions children spawns orphans)).map (·.1) =
          ((topsOf sessions children).flatMap fun session =>
            groupOf children session.id).map (·.id) := by
        rw [bracketEntries_planRows, List.map_flatMap, List.map_flatMap]
        refine List.flatMap_congr fun session _ => ?_
        rw [List.map_map]
        rfl
      have once : ((bracketEntries none (planRows sessions children spawns orphans)).map
          (·.1)).Nodup := by
        rw [keys]
        have laid := flatMap_groupOf_perm (@topsOf_nodup sessions children distinct)
          plan.childUnderTop
        rw [List.flatMap_map] at laid
        refine (laid.map (·.id)).nodup_iff.mpr ?_
        rw [List.map_map]
        exact plan.childOnce
      rw [depthOf]
      simp only [Map.ofEntries_of_nodup once]
      refine Map.get?_of_mem once ?_
      rw [bracketEntries_planRows]
      exact List.mem_flatMap.mpr ⟨session, isTop, List.mem_map.mpr ⟨child, isChild, rfl⟩⟩

end Depths

/-! ## Where delegated work goes -/

section Places

variable {depths : SessionDepths} {workdirs : List Text}

theorem parent_of_row {activity : DelegationActivityWire}
    (place : activityPlace depths activity = .row) :
    depths.depth.get? activity.parentId = some .zero := by
  unfold activityPlace at place
  split at place
  next => cases place
  next => cases place
  next depth _ found =>
    split at place
    next => cases place
    next other =>
      rw [not_or] at other
      cases depth with
      | zero => exact found
      | one => exact absurd rfl other.2

theorem parent_of_chip {activity : DelegationActivityWire}
    (place : activityPlace depths activity = .chip) :
    ∃ depth, depths.depth.get? activity.parentId = some depth := by
  unfold activityPlace at place
  split at place
  next => cases place
  next => cases place
  next depth _ found => exact ⟨depth, found⟩

/-- A worktree under a row: its parent is on top, or is a child of the row's session. -/
theorem owner_of_under {lease : DelegationLeaseWire} {owner via : Option Text}
    (place : leasePlace depths workdirs lease = .under owner via) :
    depths.depth.get? lease.parentId = some .one ∧
        owner = depths.bracket.get? lease.parentId ∨
      depths.depth.get? lease.parentId = some .zero ∧ owner = some lease.parentId := by
  unfold leasePlace at place
  split at place
  next => cases place
  next =>
    split at place
    next => cases place
    next => cases place
    next _ found =>
      cases place
      exact .inl ⟨found, rfl⟩
    next _ found =>
      cases place
      exact .inr ⟨found, rfl⟩

theorem honestRow_iff {lease : DelegationLeaseWire} :
    leasePlace depths workdirs lease = .honestRow ↔ lease.canonicalPath ∈ workdirs := by
  unfold leasePlace
  split
  next listed => exact ⟨fun _ => listed, fun _ => rfl⟩
  next unlisted =>
    refine ⟨fun same => ?_, fun listed => absurd listed unlisted⟩
    split at same <;> cases same

end Places

end Ccrc.Pwa
