import Ccrc.Pwa.NestFleetProperties

/-! The rows of a card with its delegated work, part by part, and each item once. -/

set_option autoImplicit false

namespace Ccrc.Pwa

open Library Shared

theorem listOf_map_values {ν μ : Type} {map : Map Text (List ν)} (change : List ν → List μ)
    (empty : change [] = []) (key : Text) :
    Map.listOf (map.map fun (owner, list) => (owner, change list)) key =
      change (map.listOf key) := by
  unfold Map.listOf
  induction map with
  | nil => exact empty.symm
  | cons entry rest ih =>
      obtain ⟨held, list⟩ := entry
      rw [List.map_cons, Map.get?, Map.get?]
      split
      next => rfl
      next => exact ih

theorem groupOf_map_by {α ν : Type} (key : α → Text) (change : α → ν) (items : List α)
    (sought : Text) :
    groupOf (items.map fun item => (key item, change item)) sought =
      (groupOf (items.map fun item => (key item, item)) sought).map change := by
  rw [← groupOf_map, List.map_map]
  rfl

theorem groupOf_filterMap {ν μ : Type} (select : ν → Option μ) (pushes : List (Text × ν))
    (key : Text) :
    (groupOf pushes key).filterMap select =
      groupOf (pushes.filterMap fun (held, value) => (select value).map fun kept => (held, kept))
        key := by
  induction pushes with
  | nil => rfl
  | cons push rest ih =>
      obtain ⟨held, value⟩ := push
      rw [groupOf] at ih
      by_cases same : held = key
      · cases kept : select value with
        | none => simpa [groupOf, same, kept] using ih
        | some other => simpa [groupOf, same, kept] using ih
      · cases kept : select value with
        | none => simpa [groupOf, same, kept] using ih
        | some other => simpa [groupOf, same, kept] using ih

/-! ## The delegated rows -/

section Delegated

variable (localeCompare : Text → Text → Int) (sessions : List FleetSession)
  (slice : CardDelegation) (rows : List FleetRow)

/-- The activities of one place, in the order they opened. -/
def placedActivities (place : ActivityPlace) : List DelegationActivityWire :=
  (sortBy (byOpened localeCompare) slice.activities).filter fun activity =>
    decide (activityPlace (depthOf rows) activity = place)

def sortedLeases : List DelegationLeaseWire := sortBy (byObserved localeCompare) slice.leases

/-- The worktrees under rows, each with the owner of its row. -/
def leasesUnder : List (Text × DelegationLeaseWire) :=
  (sortedLeases localeCompare slice).filterMap fun lease =>
    match leasePlace (depthOf rows) (sessions.map (·.workdir)) lease with
    | .under (some owner) _ => some (owner, lease)
    | .under none _ | .honestRow | .offline => none

def offlineLeases : List DelegationLeaseWire :=
  (sortedLeases localeCompare slice).filter fun lease =>
    decide (leasePlace (depthOf rows) (sessions.map (·.workdir)) lease = .offline)

/-- Activities under their parents. -/
def byParent (activities : List DelegationActivityWire) :
    List (Text × DelegationActivityWire) :=
  activities.map fun activity => (activity.parentId, activity)

/-- The delegated rows under a session. -/
def delegatedRows (session : FleetSession) : List FleetRow :=
  (groupOf (byParent (placedActivities localeCompare slice rows .row)) session.id).map (.activity · none) ++
    groupOf (leasePushes (depthOf rows) (sessions.map (·.workdir))
      (sortedLeases localeCompare slice)) session.id

theorem leasePushes_isLease {depths : SessionDepths} {workdirs : List Text}
    {leases : List DelegationLeaseWire} {push : Text × FleetRow}
    (member : push ∈ leasePushes depths workdirs leases) :
    ∃ lease via, push.2 = .lease lease via none := by
  obtain ⟨lease, -, pushed⟩ := List.mem_filterMap.mp member
  split at pushed
  next owner via _ =>
    cases pushed
    exact ⟨lease, via, rfl⟩
  next => cases pushed
  next => cases pushed
  next => cases pushed

/-- Rows that are in the order of their kinds stay as they are. -/
theorem reordered {activities leases : List FleetRow}
    (isActivity : ∀ row ∈ activities, isActivityRow row = true ∧ isLeaseRow row = false)
    (isLease : ∀ row ∈ leases, isLeaseRow row = true ∧ isActivityRow row = false) :
    (activities ++ leases).filter isActivityRow ++ (activities ++ leases).filter isLeaseRow =
      activities ++ leases := by
  have noLease : activities.filter isLeaseRow = [] :=
    List.filter_eq_nil_iff.mpr fun row member => by simp [(isActivity row member).2]
  have noActivity : leases.filter isActivityRow = [] :=
    List.filter_eq_nil_iff.mpr fun row member => by simp [(isLease row member).2]
  rw [List.filter_append, List.filter_append, noLease, noActivity, List.append_nil,
    List.nil_append, List.filter_eq_self.mpr fun row member => (isActivity row member).1,
    List.filter_eq_self.mpr fun row member => (isLease row member).1]

theorem under_eq (session : FleetSession) :
    (delegationChildren localeCompare rows sessions slice).under.listOf session.id =
      delegatedRows localeCompare sessions slice rows session := by
  have isActivity : ∀ row ∈ (groupOf (byParent (placedActivities localeCompare slice rows .row))
      session.id).map (FleetRow.activity · none), isActivityRow row = true ∧ isLeaseRow row = false := by
    intro row member
    obtain ⟨_, -, rfl⟩ := List.mem_map.mp member
    exact ⟨rfl, rfl⟩
  have isLease : ∀ row ∈ groupOf (leasePushes (depthOf rows) (sessions.map (·.workdir))
      (sortedLeases localeCompare slice)) session.id,
      isLeaseRow row = true ∧ isActivityRow row = false := by
    intro row member
    obtain ⟨_, _, shown⟩ := leasePushes_isLease (mem_groupOf.mp member)
    have same : row = .lease _ _ none := shown
    exact same ▸ ⟨rfl, rfl⟩
  rw [delegationChildren]
  simp only
  rw [listOf_map_values (fun list => list.filter isActivityRow ++ list.filter isLeaseRow) rfl,
    Map.listOf_pushAll, Map.listOf_pushAll, groupOf_map_by]
  exact reordered isActivity isLease

theorem chips_eq (id : Text) :
    (delegationChildren localeCompare rows sessions slice).chips.listOf id =
      groupOf (byParent (placedActivities localeCompare slice rows .chip)) id := by
  rw [delegationChildren]
  simp only
  rw [Map.listOf_pushAll]
  rfl

/-- The rows under the header of what has no listed parent. -/
def offlineRows : List FleetRow :=
  (offlineLeases localeCompare sessions slice rows).map (fun lease =>
      .lease lease lease.via (some .offlineCoordinator)) ++
    (placedActivities localeCompare slice rows .offline).map fun activity =>
      .activity activity (some .offlineCoordinator)

end Delegated

@[simp] theorem chips_withChips (children : DelegationChildren) (depth : RowDepth)
    (session : FleetSession) :
    (withChips children (.session depth session none)).chips =
      children.chips.listOf session.id := by
  rw [withChips, Map.listOf]
  cases children.chips.get? session.id <;> rfl

/-- A row with what rides on it is the row, but for the chips. -/
theorem withChips_cases (children : DelegationChildren) (row : FleetRow) :
    withChips children row = row ∨ ∃ depth session before after,
      row = .session depth session before ∧
        withChips children row = .session depth session (some after) := by
  cases row with
  | session depth session delegated =>
      rw [withChips]
      cases children.chips.get? session.id with
      | none => exact .inl rfl
      | some mine => exact .inr ⟨depth, session, delegated, mine, rfl, rfl⟩
  | pending | activity | lease | unowned | delegationGroup => exact .inl rfl

theorem withChips_same {α : Type} (shown : FleetRow → α)
    (blind : ∀ depth session before after,
      shown (.session depth session before) = shown (.session depth session (some after)))
    (children : DelegationChildren) (row : FleetRow) :
    shown (withChips children row) = shown row := by
  rcases withChips_cases children row with same | ⟨depth, session, before, after, rfl, same⟩
  · rw [same]
  · rw [same, blind depth session before after]

@[simp] theorem depth_withChips (children : DelegationChildren) (row : FleetRow) :
    (withChips children row).depth = row.depth :=
  withChips_same FleetRow.depth (fun _ _ _ _ => rfl) children row

@[simp] theorem session?_withChips (children : DelegationChildren) (row : FleetRow) :
    (withChips children row).session? = row.session? :=
  withChips_same FleetRow.session? (fun _ _ _ _ => rfl) children row

@[simp] theorem pending?_withChips (children : DelegationChildren) (row : FleetRow) :
    (withChips children row).pending? = row.pending? :=
  withChips_same FleetRow.pending? (fun _ _ _ _ => rfl) children row

/-! ## The whole card -/

section Card

variable (localeCompare : Text → Text → Int) (sessions : List FleetSession)
  (slice : CardDelegation) (children : List (Text × FleetSession))
  (spawns : List (Text × RunSummary)) (orphans : List RunSummary)

/-- The rows of a card, from the plan of its sessions and spawns. -/
def nestedRows : List FleetRow :=
  let base := planRows sessions children spawns orphans
  let delegated := delegationChildren localeCompare base sessions slice
  laidOut (topsOf sessions children)
      (fun session => withChips delegated (.session .zero session none))
      (fun session => (kidRows children spawns session).map (withChips delegated) ++
        delegatedRows localeCompare sessions slice base session) ++
    orphans.map (.pending .zero) ++
    groupRows .offlineCoordinator (offlineRows localeCompare sessions slice base) ++
    groupRows .unowned (slice.unowned.map .unowned)

theorem nestFleet_eq (runs : List RunSummary) :
    nestFleet localeCompare sessions runs (some slice) =
      nestedRows localeCompare sessions slice (cardChildren sessions runs)
        (cardSpawns sessions runs) (orphanSpawns sessions runs) := by
  unfold nestFleet delegationPass nestedRows
  simp only
  rw [programRows_eq]
  rw [spliced_laidOut _ _ _ _ _ fun session row => kidRows_depth]
  simp only [under_eq]
  rfl

theorem filterMap_groupRows {α : Type} {select : FleetRow → Option α}
    (noHeader : ∀ group count, select (.delegationGroup group count) = none)
    (group : DelegationGroupKind) (members : List FleetRow) :
    (groupRows group members).filterMap select = members.filterMap select := by
  unfold groupRows
  split
  next none => rw [none]
  next => rw [List.filterMap_cons_none (noHeader _ _)]

/-- What a reader that is blind to chips and headers finds on a card. -/
theorem filterMap_nestedRows {α : Type} {select : FleetRow → Option α}
    (noHeader : ∀ group count, select (.delegationGroup group count) = none)
    (blind : ∀ depth session before after,
      select (.session depth session before) = select (.session depth session (some after))) :
    (nestedRows localeCompare sessions slice children spawns orphans).filterMap select =
      ((topsOf sessions children).flatMap fun session =>
        (.session .zero session none :: kidRows children spawns session).filterMap select ++
          (delegatedRows localeCompare sessions slice
            (planRows sessions children spawns orphans) session).filterMap select) ++
      (orphans.map (.pending .zero)).filterMap select ++
      (offlineRows localeCompare sessions slice
        (planRows sessions children spawns orphans)).filterMap select ++
      (slice.unowned.map .unowned).filterMap select := by
  have same := withChips_same select blind
    (delegationChildren localeCompare (planRows sessions children spawns orphans) sessions slice)
  rw [nestedRows]
  simp only [List.filterMap_append, filterMap_groupRows noHeader]
  refine congrArg (· ++ _) (congrArg (· ++ _) (congrArg (· ++ _) ?_))
  rw [laidOut, List.filterMap_flatMap]
  refine List.flatMap_congr fun session _ => ?_
  have kids : ((kidRows children spawns session).map (withChips (delegationChildren localeCompare
      (planRows sessions children spawns orphans) sessions slice))).filterMap select =
      (kidRows children spawns session).filterMap select := by
    rw [List.filterMap_map]
    exact List.filterMap_congr fun row _ => same row
  rw [List.filterMap_cons, List.filterMap_cons, List.filterMap_append, kids, same]
  cases select (.session .zero session none) <;> rfl

end Card

/-! ## Readers of its parts -/

section Readers

variable {α β : Type} {localeCompare : Text → Text → Int} {sessions : List FleetSession}
  {slice : CardDelegation} {rows : List FleetRow} {select : FleetRow → Option α}

theorem filterMap_map_none {items : List β} {row : β → FleetRow}
    (blind : ∀ item, select (row item) = none) : (items.map row).filterMap select = [] := by
  rw [List.filterMap_map]
  exact List.filterMap_eq_nil_iff.mpr fun item _ => blind item

theorem filterMap_map_self {items : List α} {row : α → FleetRow}
    (shows : ∀ item, select (row item) = some item) : (items.map row).filterMap select = items := by
  rw [List.filterMap_map]
  exact (List.filterMap_congr fun item _ => shows item).trans List.filterMap_some

theorem pendings_shown (depth : RowDepth) (spawns : List RunSummary) :
    (spawns.map (FleetRow.pending depth)).filterMap FleetRow.pending? = spawns :=
  filterMap_map_self fun _ => rfl

theorem activities_shown (group : Option DelegationGroupKind)
    (activities : List DelegationActivityWire) :
    (activities.map fun activity => FleetRow.activity activity group).filterMap
      FleetRow.activity? = activities :=
  filterMap_map_self fun _ => rfl

theorem leases_shown (via : DelegationLeaseWire → Option Text)
    (group : Option DelegationGroupKind) (leases : List DelegationLeaseWire) :
    (leases.map fun lease => FleetRow.lease lease (via lease) group).filterMap FleetRow.lease? =
      leases :=
  filterMap_map_self fun _ => rfl

theorem unowned_shown (items : List DelegationUnownedWire) :
    (items.map FleetRow.unowned).filterMap FleetRow.unowned? = items :=
  filterMap_map_self fun _ => rfl

theorem kidRows_select {children : List (Text × FleetSession)} {spawns : List (Text × RunSummary)}
    {session : FleetSession}
    (noChild : ∀ child, select (.session .one child none) = none)
    (noSpawn : ∀ run, select (.pending .one run) = none) :
    (kidRows children spawns session).filterMap select = [] := by
  rw [kidRows, List.filterMap_append, filterMap_map_none noChild, filterMap_map_none noSpawn]
  rfl

theorem delegatedRows_select {session : FleetSession}
    (noActivity : ∀ activity group, select (.activity activity group) = none)
    (noLease : ∀ lease via group, select (.lease lease via group) = none) :
    (delegatedRows localeCompare sessions slice rows session).filterMap select = [] := by
  rw [delegatedRows, List.filterMap_append, filterMap_map_none fun activity => noActivity _ _,
    List.nil_append]
  refine List.filterMap_eq_nil_iff.mpr fun row member => ?_
  obtain ⟨lease, via, isLease⟩ := leasePushes_isLease (mem_groupOf.mp member)
  have same : row = .lease lease via none := isLease
  rw [same, noLease]

theorem offlineRows_select
    (noActivity : ∀ activity group, select (.activity activity group) = none)
    (noLease : ∀ lease via group, select (.lease lease via group) = none) :
    (offlineRows localeCompare sessions slice rows).filterMap select = [] := by
  rw [offlineRows, List.filterMap_append, filterMap_map_none fun lease => noLease _ _ _,
    filterMap_map_none fun activity => noActivity _ _]
  rfl

theorem delegatedRows_activities (session : FleetSession) :
    (delegatedRows localeCompare sessions slice rows session).filterMap FleetRow.activity? =
      groupOf (byParent (placedActivities localeCompare slice rows .row)) session.id := by
  have noLease : (groupOf (leasePushes (depthOf rows) (sessions.map (·.workdir))
      (sortedLeases localeCompare slice)) session.id).filterMap FleetRow.activity? = [] := by
    refine List.filterMap_eq_nil_iff.mpr fun row member => ?_
    obtain ⟨lease, via, isLease⟩ := leasePushes_isLease (mem_groupOf.mp member)
    have same : row = .lease lease via none := isLease
    rw [same]
    rfl
  rw [delegatedRows, List.filterMap_append, noLease, List.append_nil, activities_shown]

theorem delegatedRows_leases (session : FleetSession) :
    (delegatedRows localeCompare sessions slice rows session).filterMap FleetRow.lease? =
      groupOf (leasesUnder localeCompare sessions slice rows) session.id := by
  rw [delegatedRows, List.filterMap_append, filterMap_map_none fun _ => rfl, List.nil_append,
    groupOf_filterMap, leasePushes, List.filterMap_filterMap]
  refine congrArg (groupOf · session.id) (List.filterMap_congr fun lease _ => ?_)
  cases leasePlace (depthOf rows) (sessions.map (·.workdir)) lease with
  | honestRow | offline => rfl
  | under owner via => cases owner <;> rfl

end Readers

/-! ## Each item once -/

section Once

/-- Under sessions that hold every parent, each activity stands once. -/
theorem byParent_perm {keys : List Text} {activities : List DelegationActivityWire}
    (distinct : keys.Nodup) (covered : ∀ activity ∈ activities, activity.parentId ∈ keys) :
    (keys.flatMap (groupOf (byParent activities))).Perm activities := by
  have pushed : ∀ push ∈ byParent activities, push.1 ∈ keys := fun push member => by
    obtain ⟨activity, among, rfl⟩ := List.mem_map.mp member
    exact covered activity among
  have laid := flatMap_groupOf_perm distinct pushed
  rw [byParent, List.map_map] at laid
  exact laid.trans (List.Perm.of_eq (List.map_id _))

variable {localeCompare : Text → Text → Int} {sessions : List FleetSession}
  {runs : List RunSummary} {slice : CardDelegation} {children : List (Text × FleetSession)}
  {spawns : List (Text × RunSummary)} {orphans : List RunSummary}

theorem CardPlan.rows_sessions (plan : CardPlan sessions runs children spawns orphans)
    (distinct : (sessions.map (·.id)).Nodup) :
    ((nestedRows localeCompare sessions slice children spawns orphans).filterMap
      FleetRow.session?).Perm sessions := by
  rw [filterMap_nestedRows _ _ _ _ _ _ (fun _ _ => rfl) (fun _ _ _ _ => rfl),
    filterMap_map_none fun _ => rfl, filterMap_map_none fun _ => rfl,
    offlineRows_select (fun _ _ => rfl) fun _ _ _ => rfl]
  simp only [List.append_nil]
  refine (List.Perm.of_eq (List.flatMap_congr fun session _ => ?_)).trans
    (plan.sessions_perm distinct)
  rw [delegatedRows_select (fun _ _ => rfl) fun _ _ _ => rfl, List.append_nil,
    List.filterMap_cons, kidRows_sessions]
  rfl

theorem rows_tops :
    (nestedRows localeCompare sessions slice children spawns orphans).filterMap
      FleetRow.topSession? = topsOf sessions children := by
  rw [filterMap_nestedRows _ _ _ _ _ _ (fun _ _ => rfl) (fun depth _ _ _ => by cases depth <;> rfl),
    filterMap_map_none fun _ => rfl, filterMap_map_none fun _ => rfl,
    offlineRows_select (fun _ _ => rfl) fun _ _ _ => rfl]
  simp only [List.append_nil]
  refine (List.flatMap_congr fun session _ => ?_).trans (List.flatMap_singleton' _)
  rw [delegatedRows_select (fun _ _ => rfl) fun _ _ _ => rfl, List.append_nil,
    List.filterMap_cons, kidRows_select (fun _ => rfl) fun _ => rfl]
  rfl

theorem CardPlan.rows_spawns (plan : CardPlan sessions runs children spawns orphans)
    (distinct : (sessions.map (·.id)).Nodup) :
    ((nestedRows localeCompare sessions slice children spawns orphans).filterMap
      FleetRow.pending?).Perm (spawns.map (·.2) ++ orphans) := by
  rw [filterMap_nestedRows _ _ _ _ _ _ (fun _ _ => rfl) (fun _ _ _ _ => rfl),
    pendings_shown, filterMap_map_none fun _ => rfl,
    offlineRows_select (fun _ _ => rfl) fun _ _ _ => rfl]
  simp only [List.append_nil]
  refine List.Perm.append_right _ ?_
  have laid := flatMap_groupOf_perm (@topsOf_nodup sessions children distinct) plan.spawnUnderTop
  rw [List.flatMap_map] at laid
  refine (List.Perm.of_eq (List.flatMap_congr fun session _ => ?_)).trans laid
  rw [delegatedRows_select (fun _ _ => rfl) fun _ _ _ => rfl, List.append_nil,
    List.filterMap_cons, kidRows, List.filterMap_append, filterMap_map_none fun _ => rfl,
    pendings_shown]
  rfl

theorem rows_unowned :
    (nestedRows localeCompare sessions slice children spawns orphans).filterMap
      FleetRow.unowned? = slice.unowned := by
  rw [filterMap_nestedRows _ _ _ _ _ _ (fun _ _ => rfl) (fun _ _ _ _ => rfl),
    filterMap_map_none fun _ => rfl, unowned_shown,
    offlineRows_select (fun _ _ => rfl) fun _ _ _ => rfl]
  rw [List.flatMap_eq_nil_iff.mpr fun session _ => ?_]
  · rfl
  · rw [delegatedRows_select (fun _ _ => rfl) fun _ _ _ => rfl, List.append_nil,
      List.filterMap_cons, kidRows_select (fun _ => rfl) fun _ => rfl]
    rfl

/-- The activities that are rows: those under a listed parent on top, and the offline ones. -/
theorem CardPlan.rows_activities (plan : CardPlan sessions runs children spawns orphans)
    (distinct : (sessions.map (·.id)).Nodup) :
    ((nestedRows localeCompare sessions slice children spawns orphans).filterMap
      FleetRow.activity?).Perm
      (placedActivities localeCompare slice (planRows sessions children spawns orphans) .row ++
        placedActivities localeCompare slice (planRows sessions children spawns orphans)
          .offline) := by
  rw [filterMap_nestedRows _ _ _ _ _ _ (fun _ _ => rfl) (fun _ _ _ _ => rfl),
    filterMap_map_none fun _ => rfl, filterMap_map_none fun _ => rfl, offlineRows,
    List.filterMap_append, filterMap_map_none fun _ => rfl, activities_shown]
  simp only [List.append_nil, List.nil_append]
  refine List.Perm.append_right _ ?_
  have covered : ∀ activity ∈ placedActivities localeCompare slice
      (planRows sessions children spawns orphans) .row,
      activity.parentId ∈ (topsOf sessions children).map (·.id) := fun activity placed =>
    plan.top_of_depth distinct (parent_of_row (of_decide_eq_true (List.mem_filter.mp placed).2))
  have laid := byParent_perm (topsOf_nodup distinct) covered
  rw [List.flatMap_map] at laid
  refine (List.Perm.of_eq (List.flatMap_congr fun session _ => ?_)).trans laid
  rw [delegatedRows_activities, List.filterMap_cons, kidRows_select (fun _ => rfl) fun _ => rfl]
  rfl

theorem flatMap_chips_nil {rows : List FleetRow} (noSession : ∀ row ∈ rows, row.session? = none) :
    rows.flatMap FleetRow.chips = [] := by
  refine List.flatMap_eq_nil_iff.mpr fun row member => ?_
  have here := noSession row member
  cases row with
  | session depth session delegated => cases here
  | pending | activity | lease | unowned | delegationGroup => rfl

theorem groupRows_session? {group : DelegationGroupKind} {members : List FleetRow}
    (noSession : ∀ row ∈ members, row.session? = none) :
    ∀ row ∈ groupRows group members, row.session? = none := by
  intro row member
  unfold groupRows at member
  split at member
  next => cases member
  next =>
    cases List.mem_cons.mp member with
    | inl header => exact header ▸ rfl
    | inr later => exact noSession row later

theorem delegatedRows_session? {rows : List FleetRow} {session : FleetSession} :
    ∀ row ∈ delegatedRows localeCompare sessions slice rows session, row.session? = none :=
  List.filterMap_eq_nil_iff.mp (delegatedRows_select (fun _ _ => rfl) fun _ _ _ => rfl)

theorem offlineRows_session? {rows : List FleetRow} :
    ∀ row ∈ offlineRows localeCompare sessions slice rows, row.session? = none :=
  List.filterMap_eq_nil_iff.mp (offlineRows_select (fun _ _ => rfl) fun _ _ _ => rfl)

theorem unowned_session? {items : List DelegationUnownedWire} :
    ∀ row ∈ items.map FleetRow.unowned, row.session? = none := by
  intro row member
  obtain ⟨item, -, rfl⟩ := List.mem_map.mp member
  rfl

theorem orphans_session? :
    ∀ row ∈ orphans.map (FleetRow.pending .zero), row.session? = none := by
  intro row member
  obtain ⟨run, -, rfl⟩ := List.mem_map.mp member
  rfl

theorem rows_chips_eq :
    (nestedRows localeCompare sessions slice children spawns orphans).flatMap FleetRow.chips =
      ((topsOf sessions children).flatMap fun session =>
        session :: groupOf children session.id).flatMap fun session =>
          groupOf (byParent (placedActivities localeCompare slice
            (planRows sessions children spawns orphans) .chip)) session.id := by
  rw [nestedRows]
  simp only [List.flatMap_append]
  rw [flatMap_chips_nil orphans_session?,
    flatMap_chips_nil (groupRows_session? offlineRows_session?),
    flatMap_chips_nil (groupRows_session? unowned_session?), List.append_nil, List.append_nil,
    List.append_nil, laidOut, List.flatMap_assoc, List.flatMap_assoc]
  refine List.flatMap_congr fun session _ => ?_
  rw [List.flatMap_cons, List.flatMap_append, flatMap_chips_nil delegatedRows_session?,
    List.append_nil, List.flatMap_cons, chips_withChips, chips_eq, kidRows, List.map_append,
    List.flatMap_append, List.map_map, List.map_map, List.flatMap_map, List.flatMap_map]
  have noSpawn : (groupOf spawns session.id).flatMap (fun run =>
      ((withChips (delegationChildren localeCompare (planRows sessions children spawns orphans)
        sessions slice) ∘ FleetRow.pending .one) run).chips) = [] :=
    List.flatMap_eq_nil_iff.mpr fun _ _ => rfl
  rw [noSpawn, List.append_nil]
  refine congrArg _ (List.flatMap_congr fun child _ => ?_)
  rw [Function.comp, chips_withChips, chips_eq]

/-- The chips of every row, all of them under their parents. -/
theorem CardPlan.rows_chips (plan : CardPlan sessions runs children spawns orphans)
    (distinct : (sessions.map (·.id)).Nodup) :
    ((nestedRows localeCompare sessions slice children spawns orphans).flatMap
      FleetRow.chips).Perm
      (placedActivities localeCompare slice (planRows sessions children spawns orphans) .chip) := by
  have covered : ∀ activity ∈ placedActivities localeCompare slice
      (planRows sessions children spawns orphans) .chip,
      activity.parentId ∈ sessions.map (·.id) := fun activity placed => by
    obtain ⟨depth, found⟩ := parent_of_chip (of_decide_eq_true (List.mem_filter.mp placed).2)
    exact plan.listed_of_depth distinct found
  have laid := byParent_perm distinct covered
  rw [List.flatMap_map] at laid
  refine List.Perm.trans (List.Perm.of_eq rows_chips_eq)
    (((plan.sessions_perm distinct).flatMap_right _).trans laid)

/-- An activity has one place. -/
theorem placed_perm (rows : List FleetRow) :
    (placedActivities localeCompare slice rows .row ++
        placedActivities localeCompare slice rows .offline ++
        placedActivities localeCompare slice rows .chip).Perm slice.activities := by
  refine List.Perm.trans ?_ (sortBy_perm (byOpened localeCompare) slice.activities)
  unfold placedActivities
  generalize sortBy (byOpened localeCompare) slice.activities = activities
  induction activities with
  | nil => rfl
  | cons activity rest ih =>
      cases place : activityPlace (depthOf rows) activity with
      | row => simpa [place] using ih
      | offline =>
          simp only [List.filter_cons, place, reduceCtorEq, decide_false, decide_true,
            Bool.false_eq_true, if_false, if_true]
          refine List.Perm.trans ?_ (ih.cons activity)
          exact (List.perm_middle.append_right _)
      | chip =>
          simp only [List.filter_cons, place, reduceCtorEq, decide_false, decide_true,
            Bool.false_eq_true, if_false, if_true]
          exact List.perm_middle.trans (ih.cons activity)

/-- A worktree under a row stands under a session on top. -/
theorem CardPlan.owner_on_top (plan : CardPlan sessions runs children spawns orphans)
    (distinct : (sessions.map (·.id)).Nodup) {lease : DelegationLeaseWire}
    {owner via : Option Text} {workdirs : List Text}
    (place : leasePlace (depthOf (planRows sessions children spawns orphans)) workdirs lease =
      .under owner via) :
    ∃ top ∈ (topsOf sessions children).map (·.id), owner = some top := by
  rcases owner_of_under place with ⟨below, isOwner⟩ | ⟨onTop, isOwner⟩
  · obtain ⟨top, isTop, bracket⟩ := plan.bracket_of_depth distinct below
    exact ⟨top, isTop, isOwner.trans bracket⟩
  · exact ⟨lease.parentId, plan.top_of_depth distinct onTop, isOwner⟩

theorem CardPlan.leases_perm (plan : CardPlan sessions runs children spawns orphans)
    (distinct : (sessions.map (·.id)).Nodup) :
    ((leasesUnder localeCompare sessions slice
        (planRows sessions children spawns orphans)).map (·.2) ++
      offlineLeases localeCompare sessions slice
        (planRows sessions children spawns orphans)).Perm
      (slice.leases.filter fun lease =>
        decide (lease.canonicalPath ∉ sessions.map (·.workdir))) := by
  have sorted := (sortBy_perm (byObserved localeCompare) slice.leases).filter fun lease =>
    decide (lease.canonicalPath ∉ sessions.map (·.workdir))
  refine List.Perm.trans ?_ sorted
  unfold leasesUnder offlineLeases sortedLeases
  generalize sortBy (byObserved localeCompare) slice.leases = leases
  induction leases with
  | nil => rfl
  | cons lease rest ih =>
      have honest : leasePlace (depthOf (planRows sessions children spawns orphans))
          (sessions.map (·.workdir)) lease = .honestRow ↔
          lease.canonicalPath ∈ sessions.map (·.workdir) := honestRow_iff
      rw [List.filterMap_cons, List.filter_cons, List.filter_cons]
      cases place : leasePlace (depthOf (planRows sessions children spawns orphans))
          (sessions.map (·.workdir)) lease with
      | honestRow =>
          have listed := honest.mp place
          simpa only [listed, not_true_eq_false, decide_false, reduceCtorEq, Bool.false_eq_true,
            if_false] using ih
      | offline =>
          have unlisted : lease.canonicalPath ∉ sessions.map (·.workdir) := fun listed => by
            rw [honest.mpr listed] at place
            cases place
          simp only [unlisted, not_false_eq_true, decide_true, if_true]
          exact List.perm_middle.trans (ih.cons lease)
      | under owner via =>
          have unlisted : lease.canonicalPath ∉ sessions.map (·.workdir) := fun listed => by
            rw [honest.mpr listed] at place
            cases place
          obtain ⟨top, -, rfl⟩ := plan.owner_on_top distinct place
          simp only [unlisted, not_false_eq_true, decide_true, if_true, reduceCtorEq, decide_false,
            Bool.false_eq_true, if_false, List.map_cons, List.cons_append]
          exact ih.cons lease

theorem CardPlan.rows_leases (plan : CardPlan sessions runs children spawns orphans)
    (distinct : (sessions.map (·.id)).Nodup) :
    ((nestedRows localeCompare sessions slice children spawns orphans).filterMap
      FleetRow.lease?).Perm (slice.leases.filter fun lease =>
        decide (lease.canonicalPath ∉ sessions.map (·.workdir))) := by
  rw [filterMap_nestedRows _ _ _ _ _ _ (fun _ _ => rfl) (fun _ _ _ _ => rfl),
    filterMap_map_none fun _ => rfl, filterMap_map_none fun _ => rfl, offlineRows,
    List.filterMap_append, leases_shown, filterMap_map_none fun _ => rfl]
  simp only [List.append_nil]
  refine List.Perm.trans (List.Perm.append_right _ ?_) (plan.leases_perm distinct)
  have covered : ∀ push ∈ leasesUnder localeCompare sessions slice
      (planRows sessions children spawns orphans),
      push.1 ∈ (topsOf sessions children).map (·.id) := fun push member => by
    obtain ⟨lease, -, pushed⟩ := List.mem_filterMap.mp member
    split at pushed
    next owner via place =>
      cases pushed
      obtain ⟨top, isTop, same⟩ := plan.owner_on_top distinct place
      cases same
      exact isTop
    next => cases pushed
    next => cases pushed
    next => cases pushed
  have laid := flatMap_groupOf_perm (topsOf_nodup distinct) covered
  rw [List.flatMap_map] at laid
  refine (List.Perm.of_eq (List.flatMap_congr fun session _ => ?_)).trans laid
  rw [delegatedRows_leases, List.filterMap_cons, kidRows_select (fun _ => rfl) fun _ => rfl]
  rfl

end Once

/-! ## Under their owners -/

section Owned

variable {runs : List RunSummary}

/-- Reading the rows from a top session on: every child and spawn is named by a run of the
session it stands under. -/
def Owned (runs : List RunSummary) : Option FleetSession → List FleetRow → Prop
  | _, [] => True
  | top, row :: rest =>
      (row.depth = .one → row.session?.isSome ∨ row.pending?.isSome →
        ∃ owner, top = some owner ∧ row.NamedBy runs owner) ∧
      Owned runs (if row.depth = .zero then row.topSession? else top) rest

theorem topSession?_eq {row : FleetRow} {owner : FleetSession}
    (top : row.topSession? = some owner) : ∃ delegated, row = .session .zero owner delegated := by
  cases row with
  | session depth session delegated =>
      cases depth with
      | zero => cases top; exact ⟨delegated, rfl⟩
      | one => cases top
  | pending | activity | lease | unowned | delegationGroup => cases top

theorem Owned.at_prefix {top : Option FleetSession} {rows before : List FleetRow} {row : FleetRow}
    (owned : Owned runs top rows) (here : before ++ [row] <+: rows) (depth : row.depth = .one)
    (kind : row.session?.isSome ∨ row.pending?.isSome) :
    (∃ first owner delegated between, before = first ++ .session .zero owner delegated :: between ∧
        (∀ other ∈ between, other.depth = .one) ∧ row.NamedBy runs owner) ∨
      ∃ owner, top = some owner ∧ (∀ other ∈ before, other.depth = .one) ∧
        row.NamedBy runs owner := by
  induction rows generalizing top before with
  | nil => simp at here
  | cons head rest ih =>
      cases before with
      | nil =>
          rw [List.nil_append, List.cons_prefix_cons] at here
          obtain ⟨owner, isTop, named⟩ := owned.1 (here.1 ▸ depth) (here.1 ▸ kind)
          exact .inr ⟨owner, isTop, fun other member => absurd member List.not_mem_nil,
            here.1.symm ▸ named⟩
      | cons first before =>
          rw [List.cons_append, List.cons_prefix_cons] at here
          obtain ⟨rfl, here⟩ := here
          rcases ih owned.2 here with
            ⟨more, owner, delegated, between, rfl, below, named⟩ | ⟨owner, isTop, below, named⟩
          · exact .inl ⟨first :: more, owner, delegated, between, rfl, below, named⟩
          · by_cases zero : first.depth = .zero
            · rw [if_pos zero] at isTop
              obtain ⟨delegated, rfl⟩ := topSession?_eq isTop
              exact .inl ⟨[], owner, delegated, before, rfl, below, named⟩
            · rw [if_neg zero] at isTop
              refine .inr ⟨owner, isTop, fun other member => ?_, named⟩
              cases List.mem_cons.mp member with
              | inl same =>
                  subst same
                  cases isDepth : other.depth with
                  | zero => exact absurd isDepth zero
                  | one => rfl
              | inr later => exact below other later

/-- Rows without children and spawns stand under no session. -/
theorem owned_quiet {rows : List FleetRow}
    (quiet : ∀ row ∈ rows, row.depth = .zero ∨ row.session? = none ∧ row.pending? = none)
    (top : Option FleetSession) : Owned runs top rows := by
  induction rows generalizing top with
  | nil => exact trivial
  | cons row rest ih =>
      refine ⟨fun depth kind => ?_, ih (fun other member =>
        quiet other (List.mem_cons_of_mem _ member)) _⟩
      cases quiet row List.mem_cons_self with
      | inl zero => rw [depth] at zero; cases zero
      | inr none => simp [none.1, none.2] at kind

theorem owned_below {owner : FleetSession} {body rest : List FleetRow}
    (below : ∀ row ∈ body, row.depth = .one ∧ row.NamedBy runs owner)
    (more : Owned runs (some owner) rest) : Owned runs (some owner) (body ++ rest) := by
  induction body with
  | nil => exact more
  | cons row body ih =>
      have here := below row List.mem_cons_self
      refine ⟨fun _ _ => ⟨owner, rfl, here.2⟩, ?_⟩
      rw [if_neg (by rw [here.1]; exact fun same => by cases same)]
      exact ih fun other member => below other (List.mem_cons_of_mem _ member)

theorem owned_laidOut {tops : List FleetSession} {top : FleetSession → FleetRow}
    {body : FleetSession → List FleetRow} {rest : List FleetRow}
    (onTop : ∀ session, (top session).depth = .zero ∧ (top session).topSession? = some session)
    (below : ∀ session ∈ tops, ∀ row ∈ body session,
      row.depth = .one ∧ row.NamedBy runs session)
    (more : ∀ opened, Owned runs opened rest) (opened : Option FleetSession) :
    Owned runs opened (laidOut tops top body ++ rest) := by
  induction tops generalizing opened with
  | nil => exact more opened
  | cons session others ih =>
      rw [laidOut, List.flatMap_cons, List.cons_append, List.cons_append, List.append_assoc]
      refine ⟨fun depth => ?_, ?_⟩
      · rw [(onTop session).1] at depth
        cases depth
      · rw [if_pos (onTop session).1, (onTop session).2]
        exact owned_below (below session List.mem_cons_self)
          (ih (fun other member => below other (List.mem_cons_of_mem _ member)) _)

end Owned

/-! ## Counts -/

/-- Every header counts the rows under it. -/
def Counted (rows : List FleetRow) : Prop :=
  ∀ group count after, .delegationGroup group count :: after <:+ rows →
    (after.takeWhile fun row => row.depth == .one).length = count ∧
      ∀ row ∈ after.takeWhile (fun row => row.depth == .one), row.group? = some group

theorem counted_append {rows rest : List FleetRow}
    (noHeader : ∀ row ∈ rows, ∀ group count, row ≠ .delegationGroup group count)
    (more : Counted rest) : Counted (rows ++ rest) := by
  induction rows with
  | nil => exact more
  | cons row rows ih =>
      intro group count after here
      rw [List.cons_append, List.suffix_cons_iff] at here
      cases here with
      | inl same =>
          exact absurd (List.cons.inj same).1.symm (noHeader row List.mem_cons_self group count)
      | inr later =>
          exact ih (fun other member => noHeader other (List.mem_cons_of_mem _ member))
            group count after later

theorem counted_groupRows {group : DelegationGroupKind} {members rest : List FleetRow}
    (below : ∀ row ∈ members, row.depth = .one ∧ row.group? = some group)
    (ends : rest.takeWhile (fun row => row.depth == .one) = []) (more : Counted rest) :
    Counted (groupRows group members ++ rest) := by
  have noHeader : ∀ row ∈ members, ∀ group count, row ≠ .delegationGroup group count := by
    rintro row member group count rfl
    have depth := (below _ member).1
    cases depth
  have all : (members ++ rest).takeWhile (fun row => row.depth == .one) = members := by
    rw [List.takeWhile_append_of_pos fun row member => by rw [(below row member).1]; rfl, ends,
      List.append_nil]
  unfold groupRows
  split
  next none => exact more
  next =>
    intro other count after here
    rw [List.cons_append, List.suffix_cons_iff] at here
    cases here with
    | inl same =>
        obtain ⟨header, rfl⟩ := List.cons.inj same
        cases header
        rw [all]
        exact ⟨rfl, fun row member => (below row member).2⟩
    | inr later => exact counted_append noHeader more other count after later

/-! ## The card -/

section Nested

variable {localeCompare : Text → Text → Int} {sessions : List FleetSession}
  {runs : List RunSummary} {slice : CardDelegation} {children : List (Text × FleetSession)}
  {spawns : List (Text × RunSummary)} {orphans : List RunSummary}

/-- The row of a session carries the chips of its own id, and below another one it is a child. -/
theorem session_row {row : FleetRow} {session : FleetSession}
    (member : row ∈ nestedRows localeCompare sessions slice children spawns orphans)
    (shows : row.session? = some session) :
    ∃ depth, row = withChips (delegationChildren localeCompare
        (planRows sessions children spawns orphans) sessions slice) (.session depth session none) ∧
      (depth = .zero ∨ ∃ child ∈ children, child.2 = session) := by
  have noRow {rows : List FleetRow} (none : ∀ row ∈ rows, row.session? = none)
      (among : row ∈ rows) : False := by
    rw [none row among] at shows
    cases shows
  rw [nestedRows] at member
  simp only [List.mem_append] at member
  rcases member with ((laid | orphan) | offline) | unowned
  · obtain ⟨top, -, here⟩ := List.mem_flatMap.mp laid
    cases List.mem_cons.mp here with
    | inl isTop =>
        rw [isTop, session?_withChips] at shows
        cases shows
        exact ⟨.zero, isTop, .inl rfl⟩
    | inr under =>
        cases List.mem_append.mp under with
        | inr delegated => exact (noRow delegatedRows_session? delegated).elim
        | inl kid =>
            obtain ⟨before, isKid, rfl⟩ := List.mem_map.mp kid
            rw [session?_withChips] at shows
            cases List.mem_append.mp isKid with
            | inl isChild =>
                obtain ⟨child, among, rfl⟩ := List.mem_map.mp isChild
                cases shows
                exact ⟨.one, rfl, .inr ⟨(top.id, session), mem_groupOf.mp among, rfl⟩⟩
            | inr isSpawn =>
                obtain ⟨run, -, rfl⟩ := List.mem_map.mp isSpawn
                cases shows
  · exact (noRow orphans_session? orphan).elim
  · exact (noRow (groupRows_session? offlineRows_session?) offline).elim
  · exact (noRow (groupRows_session? unowned_session?) unowned).elim

theorem namedBy_withChips (delegated : DelegationChildren) (owner : FleetSession)
    (row : FleetRow) : (withChips delegated row).NamedBy runs owner ↔ row.NamedBy runs owner :=
  Iff.of_eq (withChips_same (FleetRow.NamedBy runs owner) (fun _ _ _ _ => rfl) delegated row)

theorem CardPlan.kid_named (plan : CardPlan sessions runs children spawns orphans)
    {session : FleetSession} {row : FleetRow} (member : row ∈ kidRows children spawns session) :
    row.NamedBy runs session := by
  cases List.mem_append.mp member with
  | inl isChild =>
      obtain ⟨child, among, rfl⟩ := List.mem_map.mp isChild
      obtain ⟨run, isRun, isOwner, isChild⟩ := plan.childNamed _ (mem_groupOf.mp among)
      exact ⟨run, isRun, isOwner, isChild⟩
  | inr isSpawn =>
      obtain ⟨run, among, rfl⟩ := List.mem_map.mp isSpawn
      exact plan.spawnNamed _ (mem_groupOf.mp among)

theorem delegatedRows_below {rows : List FleetRow} {session : FleetSession} {row : FleetRow}
    (member : row ∈ delegatedRows localeCompare sessions slice rows session) :
    row.depth = .one ∧ ∀ owner, row.NamedBy runs owner := by
  cases List.mem_append.mp member with
  | inl isActivity =>
      obtain ⟨activity, -, rfl⟩ := List.mem_map.mp isActivity
      exact ⟨rfl, fun _ => trivial⟩
  | inr isLease =>
      obtain ⟨lease, via, shown⟩ := leasePushes_isLease (mem_groupOf.mp isLease)
      have same : row = .lease lease via none := shown
      exact same ▸ ⟨rfl, fun _ => trivial⟩

theorem offlineRows_below {rows : List FleetRow} :
    ∀ row ∈ offlineRows localeCompare sessions slice rows,
      row.depth = .one ∧ row.group? = some .offlineCoordinator := by
  intro row member
  cases List.mem_append.mp member with
  | inl isLease =>
      obtain ⟨lease, -, rfl⟩ := List.mem_map.mp isLease
      exact ⟨rfl, rfl⟩
  | inr isActivity =>
      obtain ⟨activity, -, rfl⟩ := List.mem_map.mp isActivity
      exact ⟨rfl, rfl⟩

theorem unowned_below {items : List DelegationUnownedWire} :
    ∀ row ∈ items.map FleetRow.unowned, row.depth = .one ∧ row.group? = some .unowned := by
  intro row member
  obtain ⟨item, -, rfl⟩ := List.mem_map.mp member
  exact ⟨rfl, rfl⟩

theorem groupRows_quiet {group : DelegationGroupKind} {members : List FleetRow}
    (quiet : ∀ row ∈ members, row.session? = none ∧ row.pending? = none) :
    ∀ row ∈ groupRows group members,
      row.depth = .zero ∨ row.session? = none ∧ row.pending? = none := by
  intro row member
  unfold groupRows at member
  split at member
  next => cases member
  next =>
    cases List.mem_cons.mp member with
    | inl header => exact .inl (header ▸ rfl)
    | inr later => exact .inr (quiet row later)

theorem CardPlan.rows_owned (plan : CardPlan sessions runs children spawns orphans) :
    Owned runs none (nestedRows localeCompare sessions slice children spawns orphans) := by
  rw [nestedRows]
  simp only [List.append_assoc]
  refine owned_laidOut (fun session => ⟨depth_withChips _ _, ?_⟩) ?_ (owned_quiet ?_) none
  · exact withChips_same FleetRow.topSession? (fun depth _ _ _ => by cases depth <;> rfl) _ _
  · intro session _ row member
    cases List.mem_append.mp member with
    | inl kid =>
        obtain ⟨before, isKid, rfl⟩ := List.mem_map.mp kid
        rw [depth_withChips]
        exact ⟨kidRows_depth isKid, (namedBy_withChips _ _ _).mpr (plan.kid_named isKid)⟩
    | inr delegated => exact (delegatedRows_below delegated).imp_right fun named => named session
  · intro row member
    rcases List.mem_append.mp member with orphan | grouped
    · obtain ⟨run, -, rfl⟩ := List.mem_map.mp orphan
      exact .inl rfl
    · cases List.mem_append.mp grouped with
      | inl offline =>
          refine groupRows_quiet (fun other among => ⟨offlineRows_session? other among, ?_⟩) row
            offline
          have noSpawn : (offlineRows localeCompare sessions slice (planRows sessions children
              spawns orphans)).filterMap FleetRow.pending? = [] :=
            offlineRows_select (fun _ _ => rfl) fun _ _ _ => rfl
          exact List.filterMap_eq_nil_iff.mp noSpawn other among
      | inr unowned =>
          refine groupRows_quiet (fun other among => ⟨unowned_session? other among, ?_⟩) row unowned
          obtain ⟨item, -, rfl⟩ := List.mem_map.mp among
          rfl

theorem withChips_header (delegated : DelegationChildren) {row : FleetRow}
    (noHeader : ∀ group count, row ≠ .delegationGroup group count) :
    ∀ group count, withChips delegated row ≠ .delegationGroup group count := by
  intro group count same
  rcases withChips_cases delegated row with kept | ⟨_, _, _, _, rfl, isSession⟩
  · exact noHeader group count (kept ▸ same)
  · rw [isSession] at same
    cases same

theorem rows_counted :
    Counted (nestedRows localeCompare sessions slice children spawns orphans) := by
  have last : Counted (groupRows .unowned (slice.unowned.map .unowned) ++ []) :=
    counted_groupRows unowned_below rfl fun _ _ _ here => by simp at here
  have ends : (groupRows .unowned (slice.unowned.map .unowned) ++ []).takeWhile
      (fun row : FleetRow => row.depth == RowDepth.one) = [] := by
    unfold groupRows
    split <;> rfl
  rw [nestedRows]
  simp only [List.append_assoc]
  refine counted_append (fun row member => ?_) (counted_append (fun row member => ?_)
    (List.append_nil (groupRows .unowned _) ▸ counted_groupRows offlineRows_below ends last))
  · obtain ⟨session, -, here⟩ := List.mem_flatMap.mp member
    cases List.mem_cons.mp here with
    | inl top => exact top ▸ withChips_header _ fun _ _ same => by cases same
    | inr under =>
        cases List.mem_append.mp under with
        | inl kid =>
            obtain ⟨before, isKid, rfl⟩ := List.mem_map.mp kid
            refine withChips_header _ ?_
            rintro group count rfl
            have depth := kidRows_depth isKid
            cases depth
        | inr delegated =>
            rintro group count rfl
            have below := (@delegatedRows_below _ _ [] _ _ _ _ delegated).1
            cases below
  · obtain ⟨run, -, rfl⟩ := List.mem_map.mp member
    exact fun _ _ same => by cases same

theorem nestedRows_isNested (plan : CardPlan sessions runs children spawns orphans)
    (distinct : (sessions.map (·.id)).Nodup) :
    IsNested sessions runs slice
      (nestedRows localeCompare sessions slice children spawns orphans) where
  sessionsOnce := plan.rows_sessions distinct
  topsInOrder := by
    rw [rows_tops]
    exact List.filter_sublist
  underOwner before row here depth kind := by
    rcases plan.rows_owned.at_prefix here depth kind with owned | ⟨_, none, -⟩
    · exact owned
    · cases none
  ownersOnTop run member drawn row among session shows isOwner := by
    obtain ⟨depth, rfl, place⟩ := session_row among shows
    rw [depth_withChips]
    rcases place with rfl | ⟨child, isChild, rfl⟩
    · rfl
    · exact absurd isOwner (plan.ownersOnTop run member drawn child isChild)
  spawnsOnce := (plan.rows_spawns distinct).trans plan.spawnsOnce
  activitiesOnce :=
    ((plan.rows_activities distinct).append (plan.rows_chips distinct)).trans (placed_perm _)
  chipsOnParent row member session shows activity carried := by
    obtain ⟨depth, rfl, -⟩ := session_row member shows
    rw [chips_withChips, chips_eq] at carried
    obtain ⟨other, -, same⟩ := List.mem_map.mp (mem_groupOf.mp carried)
    obtain ⟨isParent, rfl⟩ := Prod.mk.inj same
    exact isParent
  leasesOnce := plan.rows_leases distinct
  unownedOnce := rows_unowned
  counts := rows_counted

/-! ## Absence -/

/-- A slice that carries nothing. -/
def emptySlice : CardDelegation := ⟨[], [], []⟩

theorem spliced_nothing {delegated : DelegationChildren} (noRows : delegated.under = [])
    (noChips : delegated.chips = []) (opened : Option Text) (rows : List FleetRow) :
    spliced delegated opened rows = rows := by
  have closed (opened : Option Text) : closing delegated opened = [] := by
    cases opened with
    | none => rfl
    | some id => rw [closing, noRows]; rfl
  induction rows generalizing opened with
  | nil => exact closed opened
  | cons row rest ih =>
      have same : withChips delegated row = row := by
        cases row with
        | session depth session carried => rw [withChips, noChips]; rfl
        | pending | activity | lease | unowned | delegationGroup => rfl
      rw [spliced]
      simp only [closed, ite_self, List.nil_append]
      rw [same, ih]

/-- An empty slice adds nothing. -/
theorem nestFleet_empty (localeCompare : Text → Text → Int) (sessions : List FleetSession)
    (runs : List RunSummary) :
    nestFleet localeCompare sessions runs (some emptySlice) =
      nestFleet localeCompare sessions runs none := by
  have sorted {α : Type} (compare : α → α → Int) : sortBy compare [] = [] := by simp [sortBy]
  unfold nestFleet delegationPass
  simp only
  rw [spliced_nothing]
  · simp [delegationChildren, emptySlice, sorted, groupRows]
  · simp only [delegationChildren, emptySlice, sorted]
    rfl
  · simp only [delegationChildren, emptySlice, sorted]
    rfl

/-- Every card: no row is lost and none stands twice, with a slice of delegated work or
without one. -/
theorem nestFleet_isNested (localeCompare : Text → Text → Int) (sessions : List FleetSession)
    (runs : List RunSummary) (delegation : Option CardDelegation)
    (distinct : (sessions.map (·.id)).Nodup) :
    IsNested sessions runs (delegation.getD emptySlice)
        (nestFleet localeCompare sessions runs delegation) ∧
      nestFleet localeCompare sessions runs (some emptySlice) =
        nestFleet localeCompare sessions runs none := by
  refine ⟨?_, nestFleet_empty localeCompare sessions runs⟩
  have whole (slice : CardDelegation) :
      IsNested sessions runs slice (nestFleet localeCompare sessions runs (some slice)) := by
    rw [nestFleet_eq]
    exact nestedRows_isNested (cardPlan distinct) distinct
  cases delegation with
  | none => exact nestFleet_empty localeCompare sessions runs ▸ whole emptySlice
  | some slice => exact whole slice

/-- A worker under its coordinator, with an activity and a worktree of its own. -/
theorem nestFleet_isNested_worker :
    let coordinator : FleetSession := ⟨Text.lit "c", Text.lit "/c", .idle, none, none⟩
    let worker : FleetSession := ⟨Text.lit "w", Text.lit "/w", .working, some 1, some 1⟩
    let run : RunSummary := ⟨1, 1, .working, some (Text.lit "w"), some (Text.lit "c"), none⟩
    let slice : CardDelegation :=
      ⟨[⟨Text.lit "a", Text.lit "w", .parent, .chip, Text.lit "1"⟩],
        [⟨Text.lit "l", Text.lit "w", none, .parent, Text.lit "/l", Text.lit "1"⟩], []⟩
    IsNested [worker, coordinator] [run] slice
      (nestFleet (fun _ _ => 0) [worker, coordinator] [run] (some slice)) := by
  intro coordinator worker run slice
  exact (nestFleet_isNested (fun _ _ => 0) [worker, coordinator] [run] (some slice)
    (by decide)).1

end Nested

end Ccrc.Pwa
