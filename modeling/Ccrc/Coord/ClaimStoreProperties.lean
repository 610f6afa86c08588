import Ccrc.Coord.ClaimStore

/-! Path claims are exclusive. A granted attempt checked its paths against every
live claim of another session, the mirror bit tells which claims are live, and no
other writer makes a claim live or changes its holder, its project or its paths. -/

set_option autoImplicit false

namespace Ccrc.Coord

open Library

/-- Equal, or one a directory of the other by whole segments. -/
def Overlapping (first second : Text) : Prop :=
  first.splitOn slash <+: second.splitOn slash ∨ second.splitOn slash <+: first.splitOn slash

theorem pathsOverlap_iff {first second : Text} :
    pathsOverlap first second = true ↔ Overlapping first second := by
  simp only [pathsOverlap, Overlapping, splitOn_isPrefix_iff, Text.startsWith, Bool.or_eq_true,
    beq_iff_eq, List.isPrefixOf_iff_prefix]
  constructor
  · rintro ((same | inside) | outside)
    · exact Or.inl (Or.inl same)
    · exact Or.inl (Or.inr inside)
    · exact Or.inr (Or.inr outside)
  · rintro ((same | inside) | (same | outside))
    · exact Or.inl (Or.inl same)
    · exact Or.inl (Or.inr inside)
    · exact Or.inl (Or.inl same.symm)
    · exact Or.inr outside

/-! ## What a decision grants -/

/-- A granted attempt names each path once, and none that overlaps a path of
another session. -/
theorem decideClaim_ok {existing : List ClaimRow} {request : ClaimRequest} {paths : List Text}
    (granted : decideClaim existing request = .ok paths) :
    paths.Nodup ∧ ∀ path ∈ paths, ∀ claim ∈ existing, claim.project = request.project →
      claim.heldBy ≠ request.sessionId → ∀ claimed ∈ claim.paths, ¬Overlapping path claimed := by
  simp only [decideClaim] at granted
  split at granted
  next => cases granted
  next =>
      split at granted
      next => cases granted
      next unconflicted =>
          cases granted
          refine ⟨by simpa using firstBy_nodup (id : Text → Text) [] _, ?_⟩
          intro path isPath claim isClaim sameProject other claimed isClaimed overlaps
          refine unconflicted fun none => ?_
          have conflict : claimConflict path claimed claim ∈
              (firstBy id [] (request.paths.filterMap normalizeClaimPath)).flatMap fun path =>
                existing.flatMap fun claim =>
                  if claim.project ≠ request.project ∨ claim.heldBy = request.sessionId then []
                  else (claim.paths.filter (pathsOverlap path)).map (claimConflict path · claim) := by
            refine List.mem_flatMap.mpr ⟨path, isPath, List.mem_flatMap.mpr ⟨claim, isClaim, ?_⟩⟩
            rw [if_neg (by simp [sameProject, other])]
            exact List.mem_map_of_mem
              (List.mem_filter.mpr ⟨isClaimed, pathsOverlap_iff.mpr overlaps⟩)
          obtain ⟨first, member, _⟩ := firstBy_covers
            (fun conflict => (conflict.path, conflict.claimId)) conflict List.not_mem_nil
          rw [conflictsOf] at none
          rw [none] at member
          cases member

/-! ## The invariant -/

structure ClaimsExclusive (store : ClaimStore) : Prop where
  ids : store.claims.Pairwise (·.id < ·.id)
  mirror : ∀ row ∈ store.paths, ∃ claim ∈ store.claims, claim.id = row.claimId ∧
    claim.project = row.project ∧ row.live = claim.isLive
  owner : store.paths.Pairwise fun first second => first.live = true → second.live = true →
    first.project = second.project → first.path ≠ second.path
  apart : ∀ first ∈ store.claims, ∀ second ∈ store.claims, first.isLive = true →
    second.isLive = true → first.project = second.project → first.heldBy ≠ second.heldBy →
    ∀ one ∈ store.paths, ∀ two ∈ store.paths, one.claimId = first.id →
      two.claimId = second.id → ¬Overlapping one.path two.path

theorem ClaimsExclusive.empty : ClaimsExclusive .empty where
  ids := List.Pairwise.nil
  mirror _ member := absurd member List.not_mem_nil
  owner := List.Pairwise.nil
  apart _ member := absurd member List.not_mem_nil

theorem ClaimsExclusive.unique {store : ClaimStore} (held : ClaimsExclusive store)
    {first second : Claim} (isFirst : first ∈ store.claims) (isSecond : second ∈ store.claims)
    (same : first.id = second.id) : first = second := by
  have distinct : (store.claims.map (·.id)).Nodup := by
    rw [List.Nodup, List.pairwise_map]
    exact held.ids.imp Nat.ne_of_lt
  exact List.inj_on_of_nodup_map distinct isFirst isSecond same

/-- A rewrite of claims that keeps what exclusion reads. -/
structure KeepsHold (change : Claim → Claim) : Prop where
  id : ∀ claim, (change claim).id = claim.id
  project : ∀ claim, (change claim).project = claim.project
  heldBy : ∀ claim, (change claim).heldBy = claim.heldBy
  hardExpiresAt : ∀ claim, (change claim).hardExpiresAt = claim.hardExpiresAt
  state : ∀ claim, (change claim).state = claim.state

theorem KeepsHold.comp {first second : Claim → Claim} (early : KeepsHold first)
    (late : KeepsHold second) : KeepsHold (second ∘ first) where
  id claim := (late.id _).trans (early.id claim)
  project claim := (late.project _).trans (early.project claim)
  heldBy claim := (late.heldBy _).trans (early.heldBy claim)
  hardExpiresAt claim := (late.hardExpiresAt _).trans (early.hardExpiresAt claim)
  state claim := (late.state _).trans (early.state claim)

theorem ClaimsExclusive.rewrite {store : ClaimStore} (held : ClaimsExclusive store)
    {change : Claim → Claim} (keeps : KeepsHold change) :
    ClaimsExclusive { store with claims := store.claims.map change } := by
  have live : ∀ claim, (change claim).isLive = claim.isLive := fun claim => by
    rw [Claim.isLive, keeps.state, Claim.isLive]
  constructor
  · rw [List.pairwise_map]
    exact held.ids.imp fun less => by rwa [keeps.id, keeps.id]
  · intro row member
    obtain ⟨claim, isClaim, sameId, sameProject, mirrored⟩ := held.mirror row member
    exact ⟨change claim, List.mem_map_of_mem isClaim, (keeps.id claim).trans sameId,
      (keeps.project claim).trans sameProject, mirrored.trans (live claim).symm⟩
  · exact held.owner
  · intro first isFirst second isSecond firstLive secondLive sameProject others one isOne two isTwo
      oneOf twoOf
    obtain ⟨former, isFormer, rfl⟩ := List.mem_map.mp isFirst
    obtain ⟨latter, isLatter, rfl⟩ := List.mem_map.mp isSecond
    rw [live] at firstLive secondLive
    rw [keeps.project, keeps.project] at sameProject
    rw [keeps.heldBy, keeps.heldBy] at others
    exact held.apart former isFormer latter isLatter firstLive secondLive sameProject others one
      isOne two isTwo (oneOf.trans (keeps.id former)) (twoOf.trans (keeps.id latter))

/-- The claim of a row decides whether ending claims clears the row's bit. -/
theorem ClaimsExclusive.cleared {store : ClaimStore} (held : ClaimsExclusive store)
    (ends : Claim → Bool) {claim : Claim} (member : claim ∈ store.claims) :
    (store.claims.any fun other => other.id == claim.id && other.isLive && ends other) =
      (claim.isLive && ends claim) := by
  rw [Bool.eq_iff_iff, List.any_eq_true]
  constructor
  · rintro ⟨other, isOther, ending⟩
    simp only [Bool.and_eq_true, beq_iff_eq] at ending
    rw [← held.unique isOther member ending.1.1]
    exact Bool.and_eq_true _ _ ▸ ⟨ending.1.2, ending.2⟩
  · intro ending
    exact ⟨claim, member, by simpa using ending⟩

section EndIf

variable (ends : Claim → Bool) (state : ClaimState) (endedAt : Int) (endedBy : Text)

theorem endIf_kept (claim : Claim) :
    (claim.endIf ends state endedAt endedBy).id = claim.id ∧
      (claim.endIf ends state endedAt endedBy).project = claim.project ∧
      (claim.endIf ends state endedAt endedBy).heldBy = claim.heldBy := by
  unfold Claim.endIf
  split <;> exact ⟨rfl, rfl, rfl⟩

theorem endIf_live {state : ClaimState} (ended : state ≠ .live) (claim : Claim) :
    (claim.endIf ends state endedAt endedBy).isLive = (claim.isLive && !ends claim) := by
  unfold Claim.endIf
  cases live : claim.isLive with
  | false => simp [live]
  | true =>
      cases ending : ends claim with
      | false => simp [live]
      | true => simp [Claim.isLive, ended]

end EndIf

theorem ClaimsExclusive.endClaims {store : ClaimStore} (held : ClaimsExclusive store)
    (ends : Claim → Bool) {state : ClaimState} (ended : state ≠ .live) (endedAt : Int)
    (endedBy : Text) : ClaimsExclusive (endClaims ends state endedAt endedBy store) := by
  have kept := endIf_kept ends state endedAt endedBy
  have live := endIf_live ends endedAt endedBy ended
  -- The rows keep their claim, project and path, and no bit is set again.
  have bit : ∀ row ∈ (Coord.endClaims ends state endedAt endedBy store).paths,
      ∃ former ∈ store.paths, row.claimId = former.claimId ∧ row.project = former.project ∧
        row.path = former.path ∧ row.live =
          (former.live && !(store.claims.any fun claim =>
            claim.id == former.claimId && claim.isLive && ends claim)) := by
    intro row member
    obtain ⟨former, among, rfl⟩ := List.mem_map.mp member
    refine ⟨former, among, ?_⟩
    split
    next cleared => simp [cleared]
    next kept => simp [kept]
  constructor
  · rw [Coord.endClaims, List.pairwise_map]
    exact held.ids.imp fun less => by rwa [(kept _).1, (kept _).1]
  · intro row member
    obtain ⟨former, among, sameClaim, sameProject, _, isBit⟩ := bit row member
    obtain ⟨claim, isClaim, sameId, ofProject, mirrored⟩ := held.mirror former among
    refine ⟨claim.endIf ends state endedAt endedBy, List.mem_map_of_mem isClaim, ?_, ?_, ?_⟩
    · rw [(kept claim).1, sameId, sameClaim]
    · rw [(kept claim).2.1, ofProject, sameProject]
    · rw [isBit, ← sameId, held.cleared ends isClaim, mirrored, live]
      cases claim.isLive <;> rfl
  · rw [Coord.endClaims, List.pairwise_map]
    refine held.owner.imp fun apart firstLive secondLive sameProject => ?_
    split at firstLive
    next => cases firstLive
    next =>
        split at secondLive
        next => cases secondLive
        next unclearedFirst unclearedSecond =>
            simp only [if_neg unclearedFirst, if_neg unclearedSecond] at sameProject ⊢
            exact apart firstLive secondLive sameProject
  · intro first isFirst second isSecond firstLive secondLive sameProject others one isOne two isTwo
      oneOf twoOf
    obtain ⟨former, isFormer, rfl⟩ := List.mem_map.mp isFirst
    obtain ⟨latter, isLatter, rfl⟩ := List.mem_map.mp isSecond
    obtain ⟨oneFormer, oneAmong, oneClaim, _, onePath, _⟩ := bit one isOne
    obtain ⟨twoFormer, twoAmong, twoClaim, _, twoPath, _⟩ := bit two isTwo
    rw [live, Bool.and_eq_true] at firstLive secondLive
    rw [(kept former).2.1, (kept latter).2.1] at sameProject
    rw [(kept former).2.2, (kept latter).2.2] at others
    rw [onePath, twoPath]
    exact held.apart former isFormer latter isLatter firstLive.1 secondLive.1 sameProject others
      oneFormer oneAmong twoFormer twoAmong
      (oneClaim.symm.trans (oneOf.trans (kept former).1))
      (twoClaim.symm.trans (twoOf.trans (kept latter).1))

theorem ClaimsExclusive.expireLapsedInner {store : ClaimStore} (held : ClaimsExclusive store)
    (now : Int) : ClaimsExclusive (expireLapsedInner store now) :=
  (held.endClaims _ (by decide) now _).endClaims _ (by decide) now _

theorem renewOwn_keepsHold (input : ClaimInput) (id : Nat) :
    KeepsHold fun claim =>
      if claim.id = id ∧ claim.isLive then
        { claim with heldByUuid := input.uuid, runId := input.runId, intent := input.intent,
                     renewedAt := input.now,
                     expiresAt := min (input.now + claimLeaseMs) claim.hardExpiresAt }
      else claim where
  id claim := by split <;> rfl
  project claim := by split <;> rfl
  heldBy claim := by split <;> rfl
  hardExpiresAt claim := by split <;> rfl
  state claim := by split <;> rfl

theorem renewClaimRow_keepsHold (id : Nat) (expiresAt atTime : Int) :
    KeepsHold fun claim =>
      if claim.id = id ∧ claim.isLive then
        { claim with renewedAt := atTime, expiresAt := min expiresAt claim.hardExpiresAt }
      else claim where
  id claim := by split <;> rfl
  project claim := by split <;> rfl
  heldBy claim := by split <;> rfl
  hardExpiresAt claim := by split <;> rfl
  state claim := by split <;> rfl


/-! ## A granted attempt -/

theorem Overlapping.symm {first second : Text} (overlaps : Overlapping first second) :
    Overlapping second first :=
  Or.symm overlaps

theorem claimRow_isSome {store : ClaimStore} {claim : Claim} (member : claim ∈ store.claims) :
    ∃ row, claimRow store claim.id = some row := by
  rw [claimRow]
  cases found : store.claims.find? (·.id == claim.id) with
  | none => exact absurd (List.find?_eq_none.mp found claim member) (by simp)
  | some first => exact ⟨_, rfl⟩

/-- Renewing touches no more than the holder's attribution and the lease. -/
theorem renewOwns_some (input : ClaimInput) {store : ClaimStore} {ids : List Nat}
    (known : ∀ id ∈ ids, ∃ claim ∈ store.claims, claim.id = id) :
    ∃ change rows, KeepsHold change ∧ renewOwns input store ids =
      some ({ store with claims := store.claims.map change }, rows) := by
  induction ids generalizing store with
  | nil =>
      have keeps : KeepsHold id := by constructor <;> exact fun _ => rfl
      exact ⟨id, [], keeps, by rw [List.map_id]; rfl⟩
  | cons renewed rest ih =>
      have keeps := renewOwn_keepsHold input renewed
      obtain ⟨claim, member, sameId⟩ := known renewed List.mem_cons_self
      have present : ∀ id, (∃ claim ∈ store.claims, claim.id = id) →
          ∃ claim ∈ (renewOwn store input renewed).claims, claim.id = id := by
        rintro id ⟨claim, among, rfl⟩
        exact ⟨_, List.mem_map_of_mem among, keeps.id claim⟩
      obtain ⟨row, isRow⟩ : ∃ row, claimRow (renewOwn store input renewed) renewed = some row := by
        obtain ⟨updated, among, sameUpdated⟩ := present renewed ⟨claim, member, sameId⟩
        have found := claimRow_isSome among
        rwa [sameUpdated] at found
      obtain ⟨change, rows, later, renews⟩ := ih fun id isId =>
        present id (known id (List.mem_cons_of_mem renewed isId))
      refine ⟨change ∘ _, row :: rows, keeps.comp later, ?_⟩
      simp only [renewOwns, isRow, renews, Option.bind_eq_bind, Option.bind_some]
      simp [renewOwn]

theorem nextClaimId_fresh {store : ClaimStore} {claim : Claim} (member : claim ∈ store.claims) :
    claim.id < nextClaimId store :=
  Nat.lt_succ_of_le (le_foldl_max (List.mem_map_of_mem member))

theorem insertPaths_eq (claimId : Nat) (project : Text) {store : ClaimStore} {paths : List Text}
    (distinct : paths.Nodup)
    (free : ∀ row ∈ store.paths, row.live = true → row.project = project → row.path ∉ paths) :
    insertPaths claimId project store paths =
      some { store with
        paths := store.paths ++ paths.map ({ claimId, project, path := ·, live := true }) } := by
  induction paths generalizing store with
  | nil => simp [insertPaths]
  | cons path rest ih =>
      obtain ⟨first, others⟩ := List.nodup_cons.mp distinct
      have unowned : ¬(store.paths.any fun row =>
          row.live && row.project == project && row.path == path) = true := by
        intro owned
        obtain ⟨row, member, holds⟩ := List.any_eq_true.mp owned
        simp only [Bool.and_eq_true, beq_iff_eq] at holds
        exact free row member holds.1.1 holds.1.2 (holds.2 ▸ List.mem_cons_self)
      simp only [insertPaths, insertPath, if_neg unowned, Option.bind_eq_bind, Option.bind_some]
      rw [ih others]
      · simp
      · intro row member live ofProject isRest
        cases List.mem_append.mp member with
        | inl old => exact free row old live ofProject (List.mem_cons_of_mem path isRest)
        | inr new =>
            rw [List.mem_singleton.mp new] at isRest
            exact first isRest

/-- A new claim on paths that are free keeps the claims exclusive. -/
theorem ClaimsExclusive.insert {store : ClaimStore} (held : ClaimsExclusive store)
    (claim : Claim) (paths : List Text) (live : claim.isLive = true)
    (fresh : ∀ other ∈ store.claims, other.id < claim.id) (distinct : paths.Nodup)
    (free : ∀ row ∈ store.paths, row.live = true → row.project = claim.project →
      row.path ∉ paths)
    (apart : ∀ other ∈ store.claims, other.isLive = true → other.project = claim.project →
      other.heldBy ≠ claim.heldBy → ∀ row ∈ store.paths, row.claimId = other.id →
      ∀ path ∈ paths, ¬Overlapping path row.path) :
    ClaimsExclusive
      { claims := store.claims ++ [claim]
        paths := store.paths ++ paths.map fun path =>
          { claimId := claim.id, project := claim.project, path, live := true } } := by
  -- A row of an older claim is an older row.
  have older : ∀ other ∈ store.claims, ∀ row ∈ store.paths ++ paths.map fun path =>
      { claimId := claim.id, project := claim.project, path, live := true : ClaimPath },
      row.claimId = other.id → row ∈ store.paths := by
    intro other isOther row member ofOther
    refine (List.mem_append.mp member).resolve_right fun new => ?_
    obtain ⟨path, _, rfl⟩ := List.mem_map.mp new
    exact absurd ofOther (Nat.ne_of_gt (fresh other isOther))
  have newer : ∀ row ∈ store.paths ++ paths.map fun path =>
      { claimId := claim.id, project := claim.project, path, live := true : ClaimPath },
      row.claimId = claim.id → row.path ∈ paths := by
    intro row member ofClaim
    cases List.mem_append.mp member with
    | inl old =>
        obtain ⟨other, isOther, sameId, _⟩ := held.mirror row old
        exact absurd (sameId.trans ofClaim) (Nat.ne_of_lt (fresh other isOther))
    | inr new =>
        obtain ⟨path, isPath, rfl⟩ := List.mem_map.mp new
        exact isPath
  constructor
  · refine List.pairwise_append.mpr ⟨held.ids, List.pairwise_singleton _ _, ?_⟩
    intro other isOther new isNew
    exact List.mem_singleton.mp isNew ▸ fresh other isOther
  · intro row member
    cases List.mem_append.mp member with
    | inl old =>
        obtain ⟨other, isOther, mirrored⟩ := held.mirror row old
        exact ⟨other, List.mem_append_left _ isOther, mirrored⟩
    | inr new =>
        obtain ⟨path, _, rfl⟩ := List.mem_map.mp new
        exact ⟨claim, by simp, rfl, rfl, live.symm⟩
  · refine List.pairwise_append.mpr ⟨held.owner, ?_, ?_⟩
    · rw [List.pairwise_map]
      exact distinct.imp fun different _ _ _ => different
    · intro row old new isNew rowLive _ sameProject samePath
      obtain ⟨path, isPath, rfl⟩ := List.mem_map.mp isNew
      exact free row old rowLive sameProject (samePath ▸ isPath)
  · intro first isFirst second isSecond firstLive secondLive sameProject others one isOne two isTwo
      oneOf twoOf
    cases List.mem_append.mp isFirst with
    | inl oldFirst =>
        cases List.mem_append.mp isSecond with
        | inl oldSecond =>
            exact held.apart first oldFirst second oldSecond firstLive secondLive sameProject others
              one (older first oldFirst one isOne oneOf) two (older second oldSecond two isTwo twoOf)
              oneOf twoOf
        | inr newSecond =>
            cases List.mem_singleton.mp newSecond
            exact fun overlaps => apart first oldFirst firstLive sameProject others one
              (older first oldFirst one isOne oneOf) oneOf two.path (newer two isTwo twoOf)
              overlaps.symm
    | inr newFirst =>
        cases List.mem_singleton.mp newFirst
        cases List.mem_append.mp isSecond with
        | inl oldSecond =>
            exact apart second oldSecond secondLive sameProject.symm others.symm two
              (older second oldSecond two isTwo twoOf) twoOf one.path (newer one isOne oneOf)
        | inr newSecond =>
            cases List.mem_singleton.mp newSecond
            exact absurd rfl others


/-- The new row of an attempt, with its paths. -/
theorem ClaimsExclusive.insertClaim {store : ClaimStore} (held : ClaimsExclusive store)
    (input : ClaimInput) {paths : List Text} (distinct : paths.Nodup)
    (free : ∀ row ∈ store.paths, row.live = true → row.project = input.project →
      row.path ∉ paths)
    (apart : ∀ other ∈ store.claims, other.isLive = true → other.project = input.project →
      other.heldBy ≠ input.sessionId → ∀ row ∈ store.paths, row.claimId = other.id →
      ∀ path ∈ paths, ¬Overlapping path row.path) :
    ∃ after row, insertPaths (insertClaim store input).2 input.project
        (insertClaim store input).1 paths = some after ∧
      claimRow after (insertClaim store input).2 = some row ∧
      after.claims = store.claims ++ [newClaim input (nextClaimId store)] ∧
      ClaimsExclusive after := by
  have inserted : insertPaths (nextClaimId store) input.project
      (Coord.insertClaim store input).1 paths = some _ :=
    insertPaths_eq _ _ distinct free
  have exclusive := held.insert (newClaim input (nextClaimId store)) paths rfl
    (fun _ member => nextClaimId_fresh member) distinct free apart
  have member : newClaim input (nextClaimId store) ∈
      store.claims ++ [newClaim input (nextClaimId store)] := by simp
  obtain ⟨row, isRow⟩ : ∃ row, claimRow { claims := _, paths := _ } _ = some row :=
    claimRow_isSome member
  exact ⟨_, row, inserted, isRow, rfl, exclusive⟩

section Grant

variable {store : ClaimStore} (held : ClaimsExclusive store) {input : ClaimInput}

/-- The rows the decision reads, row by row. -/
theorem mem_liveClaims {claim : Claim} (member : claim ∈ store.claims)
    (live : claim.isLive = true) (ofProject : claim.project = input.project) :
    ∃ row ∈ liveClaims store input, row.id = claim.id ∧ row.project = input.project ∧
      row.heldBy = claim.heldBy ∧ row.paths = (store.paths.filter fun row =>
        row.project == input.project && row.live && row.claimId == claim.id).map (·.path) := by
  refine ⟨_, List.mem_map_of_mem (List.mem_filter.mpr ⟨member, ?_⟩), rfl, rfl, rfl, rfl⟩
  simp [live, ofProject]

include held

/-- A live path of the project stands among the paths that the decision reads for
its claim. -/
theorem path_read {claim : Claim} (member : claim ∈ store.claims) (live : claim.isLive = true)
    (ofProject : claim.project = input.project) {path : ClaimPath} (among : path ∈ store.paths)
    (ofClaim : path.claimId = claim.id) :
    path.path ∈ (store.paths.filter fun row =>
      row.project == input.project && row.live && row.claimId == claim.id).map (·.path) := by
  obtain ⟨other, isOther, sameId, sameProject, mirrored⟩ := held.mirror path among
  cases held.unique isOther member (sameId.trans ofClaim)
  refine List.mem_map_of_mem (List.mem_filter.mpr ⟨among, ?_⟩)
  simp [← sameProject, ofProject, mirrored, live, ofClaim]

variable {paths : List Text}
  (granted : decideClaim (liveClaims store input)
    { project := input.project, paths := input.paths, sessionId := input.sessionId } = .ok paths)

include granted

theorem granted_apart {claim : Claim} (member : claim ∈ store.claims)
    (live : claim.isLive = true) (ofProject : claim.project = input.project)
    (other : claim.heldBy ≠ input.sessionId) {row : ClaimPath} (among : row ∈ store.paths)
    (ofClaim : row.claimId = claim.id) {path : Text} (isPath : path ∈ paths) :
    ¬Overlapping path row.path := by
  obtain ⟨read, isRead, _, readProject, readHolder, readPaths⟩ :=
    mem_liveClaims member live ofProject
  refine (decideClaim_ok granted).2 path isPath read isRead readProject (readHolder ▸ other)
    row.path ?_
  rw [readPaths]
  exact path_read held member live ofProject among ofClaim

theorem granted_free {row : ClaimPath} (among : row ∈ store.paths) (live : row.live = true)
    (ofProject : row.project = input.project) :
    row.path ∉ paths.filter fun path =>
      (ownClaim (liveClaims store input) input.sessionId path).isNone := by
  intro fresh
  obtain ⟨isPath, unowned⟩ := List.mem_filter.mp fresh
  obtain ⟨claim, member, sameId, sameProject, mirrored⟩ := held.mirror row among
  rw [live] at mirrored
  by_cases own : claim.heldBy = input.sessionId
  · obtain ⟨read, isRead, _, _, readHolder, readPaths⟩ :=
      mem_liveClaims member mirrored.symm (sameProject.trans ofProject)
    have holds : row.path ∈ read.paths := by
      rw [readPaths]
      exact path_read held member mirrored.symm (sameProject.trans ofProject) among sameId.symm
    rw [ownClaim, Option.isNone_iff_eq_none, List.find?_eq_none] at unowned
    exact unowned read isRead (by simp [readHolder, own, holds])
  · exact granted_apart held granted member mirrored.symm (sameProject.trans ofProject) own among
      sameId.symm isPath (Or.inl (List.prefix_refl _))

/-- A granted attempt renews claims in place and may add one, and does not throw. -/
theorem grantClaim_some :
    ∃ change extra after result, KeepsHold change ∧
      grantClaim store input (liveClaims store input) paths = some (after, result) ∧
      after.claims = store.claims.map change ++ extra ∧ ClaimsExclusive after := by
  have distinct := (decideClaim_ok granted).1
  have known : ∀ own ∈ firstBy id [] (paths.filterMap fun path =>
      (ownClaim (liveClaims store input) input.sessionId path).map (·.id)),
      ∃ claim ∈ store.claims, claim.id = own := by
    intro own renewed
    obtain ⟨path, _, owned⟩ := List.mem_filterMap.mp ((firstBy_sublist _ _).mem renewed)
    obtain ⟨read, isOwn, rfl⟩ := Option.map_eq_some_iff.mp owned
    obtain ⟨claim, member, rfl⟩ := List.mem_map.mp (List.mem_of_find?_eq_some isOwn)
    exact ⟨claim, (List.mem_filter.mp member).1, rfl⟩
  obtain ⟨change, rows, keeps, renews⟩ := renewOwns_some input known
  have renewed := held.rewrite keeps
  simp only [grantClaim, renews, Option.bind_eq_bind, Option.bind_some]
  by_cases none : (paths.filter fun path =>
      (ownClaim (liveClaims store input) input.sessionId path).isNone) = []
  · rw [if_pos none]
    exact ⟨change, [], _, _, keeps, rfl, (List.append_nil _).symm, renewed⟩
  · rw [if_neg none]
    have free : ∀ row ∈ store.paths, row.live = true → row.project = input.project → _ :=
      fun _ => granted_free held granted
    have apart : ∀ other ∈ store.claims.map change, other.isLive = true →
        other.project = input.project → other.heldBy ≠ input.sessionId →
        ∀ row ∈ store.paths, row.claimId = other.id → ∀ path ∈ paths.filter fun path =>
          (ownClaim (liveClaims store input) input.sessionId path).isNone,
        ¬Overlapping path row.path := by
      intro other member live ofProject others row among ofOther path fresh
      obtain ⟨claim, isClaim, rfl⟩ := List.mem_map.mp member
      rw [Claim.isLive, keeps.state] at live
      exact granted_apart held granted isClaim live ((keeps.project claim).symm.trans ofProject)
        (fun same => others ((keeps.heldBy claim).trans same)) among
        (ofOther.trans (keeps.id claim)) (List.mem_filter.mp fresh).1
    obtain ⟨after, row, inserts, isRow, claims, exclusive⟩ :=
      renewed.insertClaim input (distinct.filter _) free apart
    refine ⟨change, _, after, .ok (rows ++ [row]), keeps, ?_, claims, exclusive⟩
    simp only [inserts, isRow, Option.bind_some]
    rfl

end Grant

theorem claimAttempt_some {store : ClaimStore} (held : ClaimsExclusive store)
    (input : ClaimInput) :
    ∃ after result, claimAttempt store input = some (after, result) ∧ ClaimsExclusive after := by
  have expired := held.expireLapsedInner input.now
  simp only [claimAttempt]
  split
  next => exact ⟨_, _, rfl, expired⟩
  next => exact ⟨_, _, rfl, expired⟩
  next granted =>
      obtain ⟨_, _, after, result, _, grants, _, exclusive⟩ := grantClaim_some expired granted
      exact ⟨after, result, grants, exclusive⟩

/-! ## Runs -/

theorem ClaimsExclusive.endClaim {store : ClaimStore} (held : ClaimsExclusive store) (id : Nat)
    {state : ClaimState} (ended : state ≠ .live) (endedBy : Text) (now : Int) :
    ClaimsExclusive (endClaim store id state endedBy now).1 := by
  unfold Coord.endClaim
  split
  next => exact held
  next =>
      split
      next => exact held.endClaims _ ended now endedBy
      next => exact held

theorem ClaimsExclusive.step {store : ClaimStore} (held : ClaimsExclusive store)
    (call : ClaimCall) : ClaimsExclusive (claimStep store call) := by
  cases call with
  | claimAttempt input =>
      obtain ⟨after, result, attempted, exclusive⟩ := claimAttempt_some held input
      rw [claimStep, attempted]
      exact exclusive
  | renewClaimRow id expiresAt atTime =>
      exact held.rewrite (renewClaimRow_keepsHold id expiresAt atTime)
  | lapseClaimRow id endedBy atTime => exact held.endClaims _ (by decide) atTime endedBy
  | claimRelease id endedBy now => exact held.endClaim id (by decide) endedBy now
  | claimBreak id endedBy now => exact held.endClaim id (by decide) endedBy now
  | releaseClaimsForRun runId atTime => exact held.endClaims _ (by decide) atTime _

theorem ClaimsExclusive.owned {store : ClaimStore} (held : ClaimsExclusive store)
    {first second : Claim} (isFirst : first ∈ store.claims) (isSecond : second ∈ store.claims)
    (firstLive : first.isLive = true) (secondLive : second.isLive = true)
    (sameProject : first.project = second.project) {path : Text}
    (ofFirst : path ∈ claimPaths store first.id) (ofSecond : path ∈ claimPaths store second.id) :
    first = second := by
  obtain ⟨one, isOne, onePath⟩ := List.mem_map.mp ofFirst
  obtain ⟨two, isTwo, twoPath⟩ := List.mem_map.mp ofSecond
  obtain ⟨oneAmong, oneOf⟩ := List.mem_filter.mp isOne
  obtain ⟨twoAmong, twoOf⟩ := List.mem_filter.mp isTwo
  rw [beq_iff_eq] at oneOf twoOf
  obtain ⟨firstClaim, isFirstClaim, firstId, firstProject, firstMirrored⟩ :=
    held.mirror one oneAmong
  obtain ⟨secondClaim, isSecondClaim, secondId, secondProject, secondMirrored⟩ :=
    held.mirror two twoAmong
  cases held.unique isFirstClaim isFirst (firstId.trans oneOf)
  cases held.unique isSecondClaim isSecond (secondId.trans twoOf)
  have same : one = two := by
    by_contra different
    have symmetric : Std.Symm fun first second : ClaimPath => first.live = true →
        second.live = true → first.project = second.project → first.path ≠ second.path :=
      ⟨fun _ _ apart live later project => (apart later live project.symm).symm⟩
    exact held.owner.forall oneAmong twoAmong different (firstMirrored.trans firstLive)
      (secondMirrored.trans secondLive) (firstProject.symm.trans (sameProject.trans secondProject))
      (onePath.trans twoPath.symm)
  exact held.unique isFirst isSecond (by rw [← oneOf, ← twoOf, same])

/-! ## Refused attempts -/

end Ccrc.Coord
