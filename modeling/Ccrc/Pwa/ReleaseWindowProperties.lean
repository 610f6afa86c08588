import Ccrc.Library.Kept
import Ccrc.Pwa.ReleaseWindow
import Ccrc.Shared.ReleaseTags

/-! What the phone shows of the releases that the server sends, beside what it would show
of the whole catalogue. -/

set_option autoImplicit false

namespace Ccrc.Pwa

open Library Shared Update

/-! ## The order of releases -/

/-- The numbers of a release tag. -/
def tagVersion (tag : Text) : Nat ×ₗ Nat ×ₗ Nat :=
  (releaseVersion tag).getD (toLex (0, toLex (0, 0)))

theorem newerTag_iff {first second : Text} (isFirst : isReleaseTag first = true)
    (isSecond : isReleaseTag second = true) :
    newerTag first second = true ↔ tagVersion second < tagVersion first := by
  rw [← releaseVersion_isSome] at isFirst isSecond
  obtain ⟨newer, firstVersion⟩ := Option.isSome_iff_exists.mp isFirst
  obtain ⟨older, secondVersion⟩ := Option.isSome_iff_exists.mp isSecond
  rw [newerTag, isNewerTag_eq firstVersion secondVersion, tagVersion, tagVersion, firstVersion,
    secondVersion]
  simp

/-- Release-tag rows, newest first. -/
def NewestFirst (releases : List ReleaseWire) : Prop :=
  releases.Pairwise fun a b => tagVersion b.tag ≤ tagVersion a.tag

def AllTags (releases : List ReleaseWire) : Prop := ∀ r ∈ releases, isReleaseTag r.tag = true

variable {releases sorted : List ReleaseWire}

theorem newestFirst_sorted (tags : AllTags releases) : NewestFirst (Update.newestFirst releases) := by
  let byVersion : ReleaseWire → ReleaseWire → Prop := fun a b => tagVersion b.tag ≤ tagVersion a.tag
  have total : Std.Total byVersion := ⟨fun a b => le_total (tagVersion b.tag) (tagVersion a.tag)⟩
  have trans : IsTrans ReleaseWire byVersion := ⟨fun a b c first second => le_trans second first⟩
  have same : Update.newestFirst releases = releases.insertionSort byVersion := by
    have mapped := @List.map_insertionSort _ _ (fun a b : ReleaseWire => ¬newerTag b.tag a.tag)
      byVersion _ _ id releases (fun a isA b isB => by
        rw [newerTag_iff (tags b isB) (tags a isA), not_lt]
        exact Iff.rfl)
    simpa [Update.newestFirst] using mapped
  rw [same]
  exact List.pairwise_insertionSort byVersion releases

theorem newestFirst_of_sorted (tags : AllTags sorted) (order : NewestFirst sorted) :
    Update.newestFirst sorted = sorted := by
  refine List.Pairwise.insertionSort_eq (order.imp_of_mem fun {a b} isA isB le => ?_)
  rw [newerTag_iff (tags b isB) (tags a isA), not_lt]
  exact le

theorem sortReleases_tags (tags : AllTags releases) :
    sortReleases releases = Update.newestFirst releases := by
  have all : releases.filter (fun r => isReleaseTag r.tag) = releases :=
    List.filter_eq_self.mpr tags
  have none' : releases.filter (fun r => !isReleaseTag r.tag) = [] :=
    List.filter_eq_nil_iff.mpr fun r member => by simp [tags r member]
  rw [sortReleases, all, none', List.append_nil]

theorem mem_newestFirst {r : ReleaseWire} : r ∈ Update.newestFirst releases ↔ r ∈ releases :=
  List.mem_insertionSort _

/-! ## The rows that are sent -/

/-- A row that one of the server's six rules names. -/
inductive Named (sorted : List ReleaseWire) (ctx : ReleaseWindowContext) (r : ReleaseWire) : Prop
  | recent (among : r ∈ sorted.take ctx.recent)
  | newer (t : Text) (isInstalled : t ∈ ctx.installed) (isTag : isReleaseTag t = true)
      (isNewer : newerTag r.tag t = true)
  | previous (isPrevious : r.tag ∈ ctx.previous)
  | intent (isIntent : r.tag ∈ ctx.intentTags)
  | installed (isInstalled : r.tag ∈ ctx.installed)
  | behind (t : Text) (isInstalled : t ∈ ctx.installed) (isTag : isReleaseTag t = true)
      (among : r ∈ (sorted.filter fun r => newerTag t r.tag).take ctx.stableBack)
  | stableBehind (t : Text) (isInstalled : t ∈ ctx.installed) (isTag : isReleaseTag t = true)
      (among : r ∈ (sorted.filter fun r => newerTag t r.tag && isStable r).take ctx.stableBack)
  | stable (among : r ∈ (sorted.filter fun r => isStable r && !r.yanked).take ctx.stableBack)
  | refused (isRefused : r.refused ≠ [])

theorem mem_take_cons {r head : ReleaseWire} {rest : List ReleaseWire} {count kept : Nat} :
    r ∈ (head :: rest).take (count - kept) ↔
      (kept < count ∧ r = head) ∨ r ∈ rest.take (count - if kept < count then kept + 1 else kept) := by
  by_cases room : kept < count
  · rw [if_pos room, show count - kept = count - (kept + 1) + 1 by omega, List.take_succ_cons,
      List.mem_cons]
    simp [room]
  · rw [if_neg room, show count - kept = 0 by omega]
    simp [room]

theorem mem_keepBehind {stableBack : Nat} {t : Text} {any stable : Nat} {rows : List ReleaseWire}
    {r : ReleaseWire} :
    r ∈ keepBehind stableBack t any stable rows ↔
      r ∈ (rows.filter fun r => newerTag t r.tag).take (stableBack - any) ∨
        r ∈ (rows.filter fun r => newerTag t r.tag && isStable r).take (stableBack - stable) := by
  induction rows generalizing any stable with
  | nil => simp [keepBehind]
  | cons head rest ih =>
      rw [keepBehind]
      cases older : newerTag t head.tag with
      | false => simp [older, ih]
      | true =>
          -- The loop may stop once both counts are full: nothing more would be taken.
          have onward : ∀ (kept : List ReleaseWire) (any stable : Nat),
              r ∈ (if stableBack ≤ any ∧ stableBack ≤ stable then kept
                else kept ++ keepBehind stableBack t any stable rest) ↔
              r ∈ kept ∨ r ∈ (rest.filter fun r => newerTag t r.tag).take (stableBack - any) ∨
                r ∈ (rest.filter fun r => newerTag t r.tag && isStable r).take
                  (stableBack - stable) := by
            intro kept any stable
            split
            next full => simp [Nat.sub_eq_zero_of_le full.1, Nat.sub_eq_zero_of_le full.2]
            next => rw [List.mem_append, ih]
          have older' : (head :: rest).filter (fun r => newerTag t r.tag) =
              head :: rest.filter fun r => newerTag t r.tag := List.filter_cons_of_pos older
          dsimp only
          rw [Bool.not_true, if_neg Bool.false_ne_true, onward, older', mem_take_cons]
          cases isStable' : isStable head with
          | false =>
              have others : (head :: rest).filter (fun r => newerTag t r.tag && isStable r) =
                  rest.filter fun r => newerTag t r.tag && isStable r :=
                List.filter_cons_of_neg (by simp [isStable'])
              rw [others]
              by_cases room : any < stableBack <;> simp [room, or_assoc]
          | true =>
              have others : (head :: rest).filter (fun r => newerTag t r.tag && isStable r) =
                  head :: rest.filter fun r => newerTag t r.tag && isStable r :=
                List.filter_cons_of_pos (by simp [older, isStable'])
              rw [others, mem_take_cons]
              by_cases room : any < stableBack <;> by_cases room' : stable < stableBack <;>
                simp [room, room'] <;> tauto

theorem mem_keepStable {stableBack waiting : Nat} {rows : List ReleaseWire} {r : ReleaseWire} :
    r ∈ keepStable stableBack waiting rows ↔
      r ∈ (rows.filter fun r => isStable r && !r.yanked).take (stableBack - waiting) := by
  induction rows generalizing waiting with
  | nil => simp [keepStable]
  | cons head rest ih =>
      rw [keepStable]
      by_cases full : stableBack ≤ waiting
      · simp [full, Nat.sub_eq_zero_of_le full]
      · rw [if_neg full]
        cases kept : isStable head && !head.yanked with
        | false => simp [kept, ih]
        | true =>
            have kept' : (head :: rest).filter (fun r => isStable r && !r.yanked) =
                head :: rest.filter fun r => isStable r && !r.yanked := List.filter_cons_of_pos kept
            rw [kept', mem_take_cons, if_pos (Nat.lt_of_not_le full)]
            simp [ih, Nat.lt_of_not_le full]

/-- The fold keeps the oldest tag seen so far. -/
theorem oldestTag_fold (installed : List Text) (lo : Option Text)
    (tags : ∀ t, t ∈ installed ∨ lo = some t → isReleaseTag t = true) :
    match installed.foldl olderOf lo with
    | none => installed = [] ∧ lo = none
    | some oldest => (oldest ∈ installed ∨ lo = some oldest) ∧
        ∀ t, t ∈ installed ∨ lo = some t → tagVersion oldest ≤ tagVersion t := by
  induction installed generalizing lo with
  | nil =>
      cases lo with
      | none => exact ⟨rfl, rfl⟩
      | some lo =>
          refine ⟨.inr rfl, fun t among => ?_⟩
          rcases among with among | same
          · cases among
          · rw [Option.some.inj same]
  | cons head rest ih =>
      rw [List.foldl_cons]
      have headTag := tags head (.inl List.mem_cons_self)
      have restTags : ∀ t ∈ rest, isReleaseTag t = true := fun t among =>
        tags t (.inl (List.mem_cons_of_mem head among))
      -- The next `lo` is the head or the one before, and no newer than either.
      have next : ∃ next, olderOf lo head = some next ∧
          (next = head ∨ lo = some next) ∧ tagVersion next ≤ tagVersion head ∧
          ∀ t, lo = some t → tagVersion next ≤ tagVersion t := by
        cases lo with
        | none => exact ⟨head, rfl, .inl rfl, le_rfl, fun t bad => by cases bad⟩
        | some lo =>
            have order := newerTag_iff (tags lo (.inr rfl)) headTag
            by_cases newer : newerTag lo head = true
            · refine ⟨head, if_pos newer, .inl rfl, le_rfl, fun t same => ?_⟩
              rw [← Option.some.inj same]
              exact (order.mp newer).le
            · refine ⟨lo, if_neg newer, .inr rfl, ?_, fun t same => ?_⟩
              · rw [order, not_lt] at newer
                exact newer
              · rw [Option.some.inj same]
      obtain ⟨next, isNext, isOne, leHead, leLo⟩ := next
      rw [isNext]
      have nextTag : isReleaseTag next = true := by
        rcases isOne with rfl | same
        · exact headTag
        · exact tags next (.inr same)
      have rest' := ih (some next) fun t among => by
        rcases among with among | same
        · exact restTags t among
        · exact Option.some.inj same ▸ nextTag
      split at rest'
      next => cases rest'.2
      next oldest found =>
          obtain ⟨among, least⟩ := rest'
          have leNext := least next (.inr rfl)
          refine ⟨?_, fun t among => ?_⟩
          · rcases among with among | same
            · exact .inl (List.mem_cons_of_mem head among)
            · cases Option.some.inj same
              rcases isOne with rfl | same
              · exact .inl List.mem_cons_self
              · exact .inr same
          · rcases among with among | same
            · rcases List.mem_cons.mp among with rfl | later
              · exact leNext.trans leHead
              · exact least t (.inl later)
            · exact leNext.trans (leLo t same)

/-- Newer than the oldest installed tag is newer than one of them. -/
theorem newer_oldest {installed : List Text} (tags : ∀ t ∈ installed, isReleaseTag t = true)
    {tag : Text} (isTag : isReleaseTag tag = true) :
    (∃ oldest, oldestTag installed = some oldest ∧ newerTag tag oldest = true) ↔
      ∃ t ∈ installed, newerTag tag t = true := by
  have folded := oldestTag_fold installed none fun t among => by
    rcases among with among | bad
    · exact tags t among
    · cases bad
  unfold oldestTag
  split at folded
  next found =>
      rw [found]
      simp [folded.1]
  next oldest found =>
      rw [found]
      have among := folded.1.resolve_right (by simp)
      constructor
      · rintro ⟨oldest', same, newer⟩
        cases same
        exact ⟨oldest, among, newer⟩
      · rintro ⟨t, isInstalled, newer⟩
        refine ⟨oldest, rfl, ?_⟩
        rw [newerTag_iff isTag (tags oldest among)]
        exact lt_of_le_of_lt (folded.2 t (.inl isInstalled))
          ((newerTag_iff isTag (tags t isInstalled)).mp newer)

/-- The server sends the catalogue, newest first, less the rows that no rule names. -/
theorem mem_releaseWindow (tags : AllTags releases) {ctx : ReleaseWindowContext}
    {r : ReleaseWire} :
    r ∈ Update.releaseWindow releases ctx ↔
      r ∈ releases ∧ Named (Update.newestFirst releases) ctx r := by
  have all : releases.filter (fun r => isReleaseTag r.tag) = releases :=
    List.filter_eq_self.mpr tags
  have rest : releases.filter (fun r => !isReleaseTag r.tag) = [] :=
    List.filter_eq_nil_iff.mpr fun r member => by simp [tags r member]
  unfold Update.releaseWindow
  simp only [all, rest, List.append_nil, List.mem_filter, decide_eq_true_eq, mem_newestFirst,
    List.mem_append, List.mem_flatMap]
  refine and_congr_right fun member => ?_
  have isTag := tags r member
  have installedTags : ∀ t ∈ ctx.installed.filter isReleaseTag, isReleaseTag t = true :=
    fun t among => (List.mem_filter.mp among).2
  have newer : r ∈ newerRows (Update.newestFirst releases)
      (oldestTag (ctx.installed.filter isReleaseTag)) ↔
      ∃ t ∈ ctx.installed.filter isReleaseTag, newerTag r.tag t = true := by
    rw [← newer_oldest installedTags isTag]
    cases oldestTag (ctx.installed.filter isReleaseTag) with
    | none => simp [newerRows]
    | some oldest => simp [newerRows, List.mem_filter, mem_newestFirst, member]
  have once : ∀ t, t ∈ firstBy id [] (ctx.installed.filter isReleaseTag) ↔
      t ∈ ctx.installed ∧ isReleaseTag t = true := by
    intro t
    rw [← List.mem_filter]
    constructor
    · exact fun among => (firstBy_sublist [] _).subset among
    · intro among
      obtain ⟨first, there, same⟩ := firstBy_covers id among List.not_mem_nil
      have same : first = t := same
      rwa [← same]
  rw [newer]
  simp only [once, mem_keepBehind, mem_keepStable, Nat.sub_zero, List.mem_filter, member, true_and,
    bne_iff_ne, decide_eq_true_eq]
  constructor
  · rintro (((((recent | ⟨t, ⟨isInstalled, isTag⟩, isNewer⟩) | isNamed) | ⟨t, ⟨isInstalled, isTag⟩,
      behind | behind⟩) | stable) | refused)
    · exact .recent recent
    · exact .newer t isInstalled isTag isNewer
    · rcases isNamed with (isPrevious | isIntent) | isInstalled
      · exact .previous isPrevious
      · exact .intent isIntent
      · exact .installed isInstalled.1
    · exact .behind t isInstalled isTag behind
    · exact .stableBehind t isInstalled isTag behind
    · exact .stable stable
    · exact .refused refused
  · intro named
    cases named with
    | recent recent => exact .inl (.inl (.inl (.inl (.inl recent))))
    | newer t isInstalled isTag isNewer =>
        exact .inl (.inl (.inl (.inl (.inr ⟨t, ⟨isInstalled, isTag⟩, isNewer⟩))))
    | previous isPrevious => exact .inl (.inl (.inl (.inr (.inl (.inl isPrevious)))))
    | intent isIntent => exact .inl (.inl (.inl (.inr (.inl (.inr isIntent)))))
    | installed isInstalled => exact .inl (.inl (.inl (.inr (.inr ⟨isInstalled, isTag⟩))))
    | behind t isInstalled isTag among =>
        exact .inl (.inl (.inr ⟨t, ⟨isInstalled, isTag⟩, .inl among⟩))
    | stableBehind t isInstalled isTag among =>
        exact .inl (.inl (.inr ⟨t, ⟨isInstalled, isTag⟩, .inr among⟩))
    | stable among => exact .inl (.inr among)
    | refused isRefused => exact .inr isRefused

/-- The rows that are sent, as a part of the sorted catalogue. -/
theorem releaseWindow_filter (tags : AllTags releases) (ctx : ReleaseWindowContext) :
    Update.releaseWindow releases ctx =
      (Update.newestFirst releases).filter fun r => decide (r ∈ Update.releaseWindow releases ctx) := by
  have all : releases.filter (fun r => isReleaseTag r.tag) = releases :=
    List.filter_eq_self.mpr tags
  have rest : releases.filter (fun r => !isReleaseTag r.tag) = [] :=
    List.filter_eq_nil_iff.mpr fun r member => by simp [tags r member]
  have shape : ∃ keep : ReleaseWire → Bool,
      Update.releaseWindow releases ctx = (Update.newestFirst releases).filter keep := by
    unfold Update.releaseWindow
    simp only [all, rest, List.append_nil]
    exact ⟨_, rfl⟩
  obtain ⟨keep, shape⟩ := shape
  rw [shape]
  refine List.filter_congr fun r member => ?_
  simp [List.mem_filter, member]

/-! ## An unmeasured fleet -/

variable {nodes : List NodeWire} {channel : Option UpdateChannel} {kept : ReleaseWire → Bool}

theorem tagged_sorted (tags : AllTags sorted) (order : NewestFirst sorted) :
    (sortReleases sorted).filter (fun r => isReleaseTag r.tag) = sorted := by
  rw [sortReleases_tags tags, newestFirst_of_sorted tags order, List.filter_eq_self]
  exact tags

theorem row_injective : Function.Injective row := fun _ _ same => (WindowRow.mk.inj same).1

/-- The rows that an unmeasured or unmanaged fleet is shown. -/
def shownRows (nodes : List NodeWire) (channel : Option UpdateChannel)
    (sorted : List ReleaseWire) : List ReleaseWire :=
  (sorted.filter (isEligible nodes channel)).take releaseWindowMax

/-- The rows strictly older than a group's last row and not in it. -/
def olderRows (shown sorted : List ReleaseWire) : Nat :=
  match shown.getLast? with
  | none => sorted.length
  | some last => (sorted.filter fun r => newerTag last.tag r.tag && decide (r ∉ shown)).length

theorem unmeasuredWindow_eq (tags : AllTags sorted) (order : NewestFirst sorted) (leftOut : Int)
    (base : ReleaseWindow) :
    unmeasuredWindow sorted nodes channel leftOut base =
      { base with
        state := if managedNodes nodes = [] then .unmanaged else .unmeasured
        newer := (shownRows nodes channel sorted).map row
        olderHidden := (olderRows (shownRows nodes channel sorted) sorted : Int) + leftOut } := by
  unfold unmeasuredWindow olderRows
  rw [tagged_sorted tags order]
  dsimp only [shownRows]
  cases ((sorted.filter (isEligible nodes channel)).take releaseWindowMax).getLast? <;> rfl

/-- The last row shown is the oldest of those shown. -/
theorem shown_last (order : NewestFirst sorted) {last r : ReleaseWire}
    (isLast : (shownRows nodes channel sorted).getLast? = some last)
    (among : r ∈ shownRows nodes channel sorted) : tagVersion last.tag ≤ tagVersion r.tag := by
  have ordered : NewestFirst (shownRows nodes channel sorted) :=
    order.sublist ((List.take_sublist _ _).trans List.filter_sublist)
  obtain ⟨front, shape⟩ := List.getLast?_eq_some_iff.mp isLast
  rw [shape] at ordered among
  rcases List.mem_append.mp among with inside | here
  · exact (List.pairwise_append.mp ordered).2.2 r inside last (List.mem_singleton.mpr rfl)
  · rw [List.mem_singleton.mp here]

/-- The counts of older rows agree where the rows left out are all older than what is shown. -/
theorem olderRows_kept (tags : AllTags sorted) (order : NewestFirst sorted)
    (same : shownRows nodes channel (sorted.filter kept) = shownRows nodes channel sorted) :
    (olderRows (shownRows nodes channel sorted) (sorted.filter kept) : Int) +
          ((sorted.length : Int) - (sorted.filter kept).length) =
        olderRows (shownRows nodes channel sorted) sorted ↔
      ∀ r ∈ sorted, kept r = false →
        ∀ e ∈ shownRows nodes channel sorted, newerTag e.tag r.tag = true := by
  have fewer : (sorted.filter kept).length ≤ sorted.length := List.length_filter_le _ _
  have inside : ∀ e ∈ shownRows nodes channel sorted, e ∈ sorted := fun e among =>
    List.mem_of_mem_filter (List.mem_of_mem_take among)
  have shownKept : ∀ e ∈ shownRows nodes channel sorted, kept e = true := by
    intro e among
    rw [← same] at among
    exact (List.mem_filter.mp (List.mem_of_mem_filter (List.mem_of_mem_take among))).2
  unfold olderRows
  cases last : (shownRows nodes channel sorted).getLast? with
  | none =>
      have empty : shownRows nodes channel sorted = [] := List.getLast?_eq_none_iff.mp last
      rw [empty]
      refine iff_of_true ?_ fun r _ _ e bad => by cases bad
      dsimp only
      omega
  | some last' =>
      have counted := @length_left_out _ kept (fun r => newerTag last'.tag r.tag &&
        decide (r ∉ shownRows nodes channel sorted)) sorted
      have isLast : last' ∈ shownRows nodes channel sorted := List.mem_of_getLast? last
      dsimp only
      have ints : ((((sorted.filter kept).filter fun r => newerTag last'.tag r.tag &&
            decide (r ∉ shownRows nodes channel sorted)).length : Int) +
          ((sorted.length : Int) - (sorted.filter kept).length) =
          ((sorted.filter fun r => newerTag last'.tag r.tag &&
            decide (r ∉ shownRows nodes channel sorted)).length : Int)) ↔
        ∀ r ∈ sorted, kept r = false → (newerTag last'.tag r.tag &&
          decide (r ∉ shownRows nodes channel sorted)) = true := by
        rw [← counted]
        omega
      rw [ints]
      constructor
      · intro all r member left e among
        have older := all r member left
        rw [Bool.and_eq_true, newerTag_iff (tags _ (inside _ isLast)) (tags r member)] at older
        rw [newerTag_iff (tags _ (inside _ among)) (tags r member)]
        exact lt_of_lt_of_le older.1 (shown_last order last among)
      · intro all r member left
        rw [Bool.and_eq_true, decide_eq_true_eq]
        refine ⟨all r member left last' isLast, fun among => ?_⟩
        rw [shownKept r among] at left
        cases left

theorem unmeasuredWindow_iff (tags : AllTags sorted) (order : NewestFirst sorted)
    (base : ReleaseWindow) :
    unmeasuredWindow (sorted.filter kept) nodes channel
          ((sorted.length : Int) - (sorted.filter kept).length) base =
        unmeasuredWindow sorted nodes channel 0 base ↔
      ∀ r ∈ sorted, kept r = false →
        ∀ e ∈ shownRows nodes channel sorted, newerTag e.tag r.tag = true := by
  have tags' : AllTags (sorted.filter kept) := fun r member => tags r (List.mem_of_mem_filter member)
  rw [unmeasuredWindow_eq tags' (order.sublist List.filter_sublist), unmeasuredWindow_eq tags order]
  simp only [ReleaseWindow.mk.injEq, true_and, and_true, Int.add_zero]
  constructor
  · rintro ⟨newer, older⟩
    have same := List.map_injective_iff.mpr row_injective newer
    rw [same] at older
    exact (olderRows_kept tags order same).mp older
  · intro all
    have same : shownRows nodes channel (sorted.filter kept) = shownRows nodes channel sorted := by
      refine take_kept fun e among => ?_
      have member := List.mem_of_mem_filter (List.mem_of_mem_take among)
      cases left : kept e with
      | true => rfl
      | false =>
          have newer := all e member left e among
          rw [newerTag_iff (tags e member) (tags e member)] at newer
          exact absurd newer (lt_irrefl _)
    rw [same]
    exact ⟨rfl, (olderRows_kept tags order same).mpr all⟩

/-! ## A measured fleet -/

theorem rollbackRows_kept {lo : Text}
    (behind : ∀ r ∈ (sorted.filter fun r => onChannel r channel && newerTag lo r.tag).take
      releaseWindowMax, kept r = true)
    (shared : ∀ r ∈ sorted, sharedPrevious nodes = some r.tag → kept r = true) :
    rollbackRows nodes channel ((sorted.filter kept).filter fun r => newerTag lo r.tag) =
      rollbackRows nodes channel (sorted.filter fun r => newerTag lo r.tag) := by
  have picked : (((sorted.filter kept).filter fun r => newerTag lo r.tag).filter
      fun r => onChannel r channel).take releaseWindowMax =
      ((sorted.filter fun r => newerTag lo r.tag).filter
        fun r => onChannel r channel).take releaseWindowMax := by
    have both : ∀ rows : List ReleaseWire, (rows.filter fun r => newerTag lo r.tag).filter
        (fun r => onChannel r channel) =
          rows.filter fun r => onChannel r channel && newerTag lo r.tag :=
      fun rows => List.filter_filter
    rw [both, both]
    exact take_kept behind
  have prevRow : ((sharedPrevious nodes).bind fun shared =>
      ((sorted.filter kept).filter fun r => newerTag lo r.tag).find?
        fun r => decide (r.tag = shared)) =
      (sharedPrevious nodes).bind fun shared =>
        (sorted.filter fun r => newerTag lo r.tag).find? fun r => decide (r.tag = shared) := by
    cases isShared : sharedPrevious nodes with
    | none => rfl
    | some tag =>
        have swapped : ((sorted.filter kept).filter fun r => newerTag lo r.tag) =
            (sorted.filter fun r => newerTag lo r.tag).filter kept := by
          rw [List.filter_filter, List.filter_filter]
          simp only [Bool.and_comm]
        rw [Option.bind_some, Option.bind_some, swapped]
        refine find?_kept fun r member among => shared r (List.mem_of_mem_filter member) ?_
        rw [isShared, of_decide_eq_true among]
  unfold rollbackRows
  simp only [picked, prevRow]

theorem measuredWindow_iff (tags : AllTags sorted) (order : NewestFirst sorted)
    (base : ReleaseWindow) {lo hi : Text}
    (newer : ∀ r ∈ sorted, newerTag r.tag hi = true → kept r = true)
    (running : ∀ r ∈ sorted, r.tag = hi → kept r = true)
    (behind : ∀ r ∈ (sorted.filter fun r => onChannel r channel && newerTag lo r.tag).take
      releaseWindowMax, kept r = true)
    (shared : ∀ r ∈ sorted, sharedPrevious nodes = some r.tag → kept r = true) :
    measuredWindow (sorted.filter kept) nodes channel
          ((sorted.length : Int) - (sorted.filter kept).length) base lo hi =
        measuredWindow sorted nodes channel 0 base lo hi ↔
      ∀ r ∈ sorted, kept r = false → newerTag lo r.tag = true := by
  have tags' : AllTags (sorted.filter kept) := fun r member => tags r (List.mem_of_mem_filter member)
  have fewer : (sorted.filter kept).length ≤ sorted.length := List.length_filter_le _ _
  have candidates : ((sorted.filter kept).filter fun r =>
      newerTag r.tag hi && onChannel r channel && !r.yanked) =
      sorted.filter fun r => newerTag r.tag hi && onChannel r channel && !r.yanked := by
    refine filter_kept fun r member among => newer r member ?_
    simp only [Bool.and_eq_true] at among
    exact among.1.1
  have run : ((sorted.filter kept).find? fun r => decide (r.tag = hi)) =
      sorted.find? fun r => decide (r.tag = hi) :=
    find?_kept fun r member among => running r member (of_decide_eq_true among)
  unfold measuredWindow
  rw [tagged_sorted tags' (order.sublist List.filter_sublist), tagged_sorted tags order]
  simp only [candidates, run, rollbackRows_kept behind shared, ReleaseWindow.mk.injEq, true_and,
    and_true]
  rw [← @length_left_out _ kept (fun r => newerTag lo r.tag) sorted]
  omega

theorem mem_managedVersions {v : Text} :
    v ∈ managedVersions nodes ↔ ∃ n ∈ managedNodes nodes, nodeVersion n = some v := by
  rw [managedVersions, List.mem_insertionSort, List.mem_filterMap]

theorem nodeVersion_tag {n : NodeWire} {v : Text} (isVersion : nodeVersion n = some v) :
    n.version = some v ∧ isReleaseTag v = true :=
  Option.filter_eq_some_iff.mp isVersion

/-- A managed node's version is one of those that the server is told. -/
theorem installed_of_managed {v : Text} (among : v ∈ managedVersions nodes) :
    v ∈ nodes.filterMap (·.version) ∧ isReleaseTag v = true := by
  obtain ⟨n, isManaged, isVersion⟩ := mem_managedVersions.mp among
  obtain ⟨version, isTag⟩ := nodeVersion_tag isVersion
  exact ⟨List.mem_filterMap.mpr ⟨n, List.mem_of_mem_filter isManaged, version⟩, isTag⟩

theorem managedVersions_sorted :
    (managedVersions nodes).Pairwise fun a b => tagVersion a ≤ tagVersion b := by
  have tags : ∀ v ∈ (managedNodes nodes).filterMap nodeVersion, isReleaseTag v = true := by
    intro v among
    obtain ⟨n, -, isVersion⟩ := List.mem_filterMap.mp among
    exact (nodeVersion_tag isVersion).2
  let byVersion : Text → Text → Prop := fun a b => tagVersion a ≤ tagVersion b
  have total : Std.Total byVersion := ⟨fun a b => le_total (tagVersion a) (tagVersion b)⟩
  have trans : IsTrans Text byVersion := ⟨fun a b c first second => le_trans first second⟩
  have same : managedVersions nodes =
      ((managedNodes nodes).filterMap nodeVersion).insertionSort byVersion := by
    have mapped := @List.map_insertionSort _ _ (fun a b : Text => ¬newerTag a b) byVersion _ _ id
      ((managedNodes nodes).filterMap nodeVersion) (fun a isA b isB => by
        rw [newerTag_iff (tags a isA) (tags b isB), not_lt]
        exact Iff.rfl)
    simpa [managedVersions] using mapped
  rw [same]
  exact List.pairwise_insertionSort byVersion _

theorem oldest_managed {lo : Text} (isLo : (managedVersions nodes).head? = some lo) :
    ∀ v ∈ managedVersions nodes, tagVersion lo ≤ tagVersion v := by
  have ordered := @managedVersions_sorted nodes
  intro v among
  cases versions : managedVersions nodes with
  | nil =>
      rw [versions] at among
      cases among
  | cons first rest =>
      rw [versions] at isLo among ordered
      cases isLo
      rcases List.mem_cons.mp among with rfl | later
      · exact le_rfl
      · exact (List.pairwise_cons.mp ordered).1 v later

theorem sharedPrevious_mem {tag : Text} (isShared : sharedPrevious nodes = some tag) :
    tag ∈ nodes.filterMap (·.previousVersion) := by
  unfold sharedPrevious at isShared
  split at isShared
  next shared one =>
      have among : shared ∈ (managedNodes nodes).map (·.previousVersion) :=
        (firstBy_sublist [] _).subset (one ▸ List.mem_singleton.mpr rfl)
      obtain ⟨n, isManaged, previous⟩ := List.mem_map.mp among
      have version := (Option.filter_eq_some_iff.mp isShared).1
      exact List.mem_filterMap.mpr ⟨n, List.mem_of_mem_filter isManaged, previous.trans version⟩
  next => cases isShared

/-! ## What is sent and what is shown -/

/-- A catalogue of releases with distinct release tags. -/
structure Catalogue where
  releases : List ReleaseWire
  tags : AllTags releases
  distinct : (releases.map (·.tag)).Nodup

/-- What the server is told of the nodes. -/
def contextOf (nodes : List NodeWire) (intentTags : List Text) : ReleaseWindowContext where
  installed := nodes.filterMap (·.version)
  previous := nodes.filterMap (·.previousVersion)
  intentTags := intentTags
  recent := releaseWindowRecent
  stableBack := releaseWindowStableBack

/-- The row is strictly older than every managed version of a measured fleet, or than each of
the newest three rows that an unmeasured or unmanaged one is shown. -/
def StrictlyOlder (catalogue : Catalogue) (nodes : List NodeWire)
    (channel : Option UpdateChannel) (r : ReleaseWire) : Prop :=
  if isMeasured nodes channel then
    ∀ n ∈ managedNodes nodes, ∀ v, nodeVersion n = some v → newerTag v r.tag = true
  else
    ∀ e ∈ shownRows nodes channel (Update.newestFirst catalogue.releases), newerTag e.tag r.tag = true

/-- Every version of a measured fleet is known, and there is one. -/
theorem managedVersions_measured (measured : isMeasured nodes channel = true) :
    ∃ lo hi, (managedVersions nodes).head? = some lo ∧ (managedVersions nodes).getLast? = some hi := by
  simp only [isMeasured, Bool.and_eq_true, decide_eq_true_eq] at measured
  obtain ⟨⟨⟨managed, reported⟩, -⟩, -⟩ := measured
  have versions : managedVersions nodes ≠ [] := by
    obtain ⟨n, isManaged⟩ := List.exists_mem_of_ne_nil _ managed
    have reads := List.filter_eq_nil_iff.mp reported n isManaged
    rw [decide_eq_true_eq] at reads
    obtain ⟨v, version⟩ := Option.ne_none_iff_exists'.mp reads
    exact List.ne_nil_of_mem (mem_managedVersions.mpr ⟨n, isManaged, version⟩)
  exact ⟨_, _, List.head?_eq_some_head versions, List.getLast?_eq_some_getLast versions⟩

/-- The newest rows behind the oldest version are rows that the server's rules name. -/
theorem named_behind {lo : Text} {intentTags : List Text} {r : ReleaseWire}
    (isInstalled : lo ∈ nodes.filterMap (·.version)) (isTag : isReleaseTag lo = true)
    (among : r ∈ (sorted.filter fun r => onChannel r channel && newerTag lo r.tag).take
      releaseWindowMax) : Named sorted (contextOf nodes intentTags) r := by
  by_cases isStable' : channel = some .stable
  · refine .stableBehind lo isInstalled isTag ?_
    simp only [onChannel, isStable', if_true] at among
    simp only [Bool.and_comm (newerTag lo _)]
    exact among
  · refine .behind lo isInstalled isTag ?_
    simp only [onChannel, isStable', if_false, Bool.true_and] at among
    exact among

/-- A row is older than the oldest version of the fleet where it is older than every one. -/
theorem newer_lo_iff {lo : Text} (isLo : (managedVersions nodes).head? = some lo)
    {r : ReleaseWire} (isTag : isReleaseTag r.tag = true) :
    newerTag lo r.tag = true ↔
      ∀ n ∈ managedNodes nodes, ∀ v, nodeVersion n = some v → newerTag v r.tag = true := by
  have loManaged : lo ∈ managedVersions nodes := List.mem_of_head? isLo
  constructor
  · intro newer n isManaged v version
    have among := mem_managedVersions.mpr ⟨n, isManaged, version⟩
    rw [newerTag_iff (installed_of_managed loManaged).2 isTag] at newer
    rw [newerTag_iff (installed_of_managed among).2 isTag]
    exact lt_of_lt_of_le newer (oldest_managed isLo v among)
  · intro all
    obtain ⟨n, isManaged, version⟩ := mem_managedVersions.mp loManaged
    exact all n isManaged lo version

/-- What the server sends is shown as the whole catalogue would be exactly where every row that
no rule names is older than all that the phone's groups start from. -/
theorem releaseWindow_sent (catalogue : Catalogue) (nodes : List NodeWire)
    (channel : Option UpdateChannel) (intentTags : List Text) :
    releaseWindow (Update.releaseWindow catalogue.releases (contextOf nodes intentTags)) nodes
          channel (some catalogue.releases.length) =
        releaseWindow catalogue.releases nodes channel none ↔
      ∀ r ∈ catalogue.releases,
        Named (Update.newestFirst catalogue.releases) (contextOf nodes intentTags) r ∨
          StrictlyOlder catalogue nodes channel r := by
  obtain ⟨releases, tags, distinct⟩ := catalogue
  dsimp only
  have member : ∀ {r}, r ∈ Update.newestFirst releases ↔ r ∈ releases := mem_newestFirst
  have sortedTags : AllTags (Update.newestFirst releases) := fun r among => tags r (member.mp among)
  have order := newestFirst_sorted tags
  obtain ⟨kept, isKept⟩ : ∃ kept : ReleaseWire → Bool, kept = fun r =>
    decide (r ∈ Update.releaseWindow releases (contextOf nodes intentTags)) := ⟨_, rfl⟩
  have named : ∀ r ∈ Update.newestFirst releases,
      Named (Update.newestFirst releases) (contextOf nodes intentTags) r → kept r = true := by
    intro r among isNamed
    rw [isKept]
    exact decide_eq_true ((mem_releaseWindow tags).mpr ⟨member.mp among, isNamed⟩)
  have left : ∀ r ∈ Update.newestFirst releases,
      kept r = false ↔ ¬Named (Update.newestFirst releases) (contextOf nodes intentTags) r := by
    intro r among
    rw [isKept, decide_eq_false_iff_not, mem_releaseWindow tags, and_iff_right (member.mp among)]
  have length : (Update.newestFirst releases).length = releases.length := List.length_insertionSort _ _
  have resorted : sortReleases (Update.newestFirst releases) = sortReleases releases := by
    rw [sortReleases_tags sortedTags, sortReleases_tags tags, newestFirst_of_sorted sortedTags order]
  rw [releaseWindow_filter tags, ← isKept]
  have empty : (Update.newestFirst releases).filter kept = [] ↔ releases = [] := by
    rw [List.filter_eq_nil_iff]
    constructor
    · intro dropped
      cases rows : Update.newestFirst releases with
      | nil =>
          rw [rows] at length
          exact List.length_eq_zero_iff.mp length.symm
      | cons first rest =>
          have isFirst : first ∈ Update.newestFirst releases := rows ▸ List.mem_cons_self
          have isRecent : first ∈ (Update.newestFirst releases).take releaseWindowRecent := by
            rw [rows]
            exact List.mem_cons_self
          exact absurd (named first isFirst (.recent isRecent)) (dropped first isFirst)
    · rintro rfl r bad
      cases bad
  have fewer : ((Update.newestFirst releases).filter kept).length ≤ (Update.newestFirst releases).length :=
    List.length_filter_le _ _
  have leftOut : leftOutByServer (some (releases.length : Int))
      ((Update.newestFirst releases).filter kept).length =
        ((Update.newestFirst releases).length : Int) - ((Update.newestFirst releases).filter kept).length := by
    rw [leftOutByServer, if_pos (by omega), length]
  have older : (∀ r ∈ Update.newestFirst releases, kept r = false →
        StrictlyOlder ⟨releases, tags, distinct⟩ nodes channel r) ↔
      ∀ r ∈ releases, Named (Update.newestFirst releases) (contextOf nodes intentTags) r ∨
        StrictlyOlder ⟨releases, tags, distinct⟩ nodes channel r := by
    constructor
    · intro all r among
      by_cases isNamed : Named (Update.newestFirst releases) (contextOf nodes intentTags) r
      · exact .inl isNamed
      · exact .inr (all r (member.mpr among) ((left r (member.mpr among)).mpr isNamed))
    · intro all r among isLeft
      exact (all r (member.mp among)).resolve_left ((left r among).mp isLeft)
  rw [← older]
  unfold releaseWindow
  rw [leftOut]
  simp only [empty]
  have whole : leftOutByServer none (releases.length : Int) = 0 := rfl
  rw [whole]
  cases measured : isMeasured nodes channel with
  | false =>
      rw [Bool.not_false, if_pos rfl, if_pos rfl]
      have viewed : ∀ base, unmeasuredWindow releases nodes channel 0 base =
          unmeasuredWindow (Update.newestFirst releases) nodes channel 0 base := by
        intro base
        unfold unmeasuredWindow
        rw [resorted]
      rw [viewed, unmeasuredWindow_iff sortedTags order]
      simp only [StrictlyOlder, measured, Bool.false_eq_true, if_false]
  | true =>
      rw [Bool.not_true, if_neg Bool.false_ne_true, if_neg Bool.false_ne_true]
      obtain ⟨lo, hi, isLo, isHi⟩ := managedVersions_measured measured
      obtain ⟨loInstalled, loTag⟩ := installed_of_managed (List.mem_of_head? isLo)
      obtain ⟨hiInstalled, hiTag⟩ := installed_of_managed (List.mem_of_getLast? isHi)
      have viewed : ∀ base, measuredWindow releases nodes channel 0 base lo hi =
          measuredWindow (Update.newestFirst releases) nodes channel 0 base lo hi := by
        intro base
        unfold measuredWindow
        rw [resorted]
      simp only [isLo, isHi]
      rw [viewed, measuredWindow_iff sortedTags order _
        (fun r among newer => named r among (.newer hi hiInstalled hiTag newer))
        (fun r among same => named r among (.installed (same ▸ hiInstalled)))
        (fun r among => named r (List.mem_of_mem_filter (List.mem_of_mem_take among))
          (named_behind loInstalled loTag among))
        (fun r among isShared => named r among (.previous (sharedPrevious_mem isShared)))]
      simp only [StrictlyOlder, measured, if_true]
      exact forall₂_congr fun r among => imp_congr_right fun _ =>
        newer_lo_iff isLo (sortedTags r among)

/-- Thirty-one Dev releases, the newest first, over one Stable release. -/
def devCatalogue : List ReleaseWire :=
  (List.range 31).map (fun n => ⟨Text.lit "v0.0." ++ Text.ofNat (32 - n), some .dev, false, []⟩) ++
    [⟨Text.lit "v0.0.1", some .stable, false, []⟩]

theorem releaseWindow_sent_fails :
    ¬∀ (catalogue : Catalogue) (nodes : List NodeWire) (channel : Option UpdateChannel)
      (intentTags : List Text),
      releaseWindow (Update.releaseWindow catalogue.releases (contextOf nodes intentTags)) nodes
          channel (some catalogue.releases.length) =
        releaseWindow catalogue.releases nodes channel none := by
  intro all
  -- With no managed node on Stable the one row shown is the oldest, and `v0.0.2` is left out.
  have same := congrArg ReleaseWindow.olderHidden
    (all ⟨devCatalogue, by unfold AllTags; decide +kernel, by decide +kernel⟩ [] (some .stable) [])
  revert same
  decide +kernel

end Ccrc.Pwa
