import Ccrc.CodexBridge.LiveText

/-! The two readings at the terminal: what is held is released in both, and the
live block that is left, if any, is the difference. -/

set_option autoImplicit false

namespace Ccrc.CodexBridge

open Library
open Library.Str (lit)

theorem insertionSort_of_least {least : Nat} {keys : List Nat} (distinct : keys.Nodup)
    (member : least ∈ keys) (ahead : ∀ key ∈ keys, least ≤ key) :
    keys.insertionSort (· ≤ ·) =
      least :: (keys.filter (· ≠ least)).insertionSort (· ≤ ·) := by
  have others : (keys.filter (· ≠ least)).Perm (keys.erase least) := by
    rw [distinct.erase_eq_filter]
    exact List.Perm.of_eq (List.filter_congr fun key _ => by simp [bne, beq_eq_decide])
  have same : (keys.insertionSort (· ≤ ·)).Perm
      (least :: (keys.filter (· ≠ least)).insertionSort (· ≤ ·)) :=
    (List.perm_insertionSort (· ≤ ·) keys).trans
      ((List.perm_cons_erase member).trans
        (.cons least (others.symm.trans (List.perm_insertionSort (· ≤ ·) _).symm)))
  refine same.eq_of_pairwise' (List.pairwise_insertionSort (· ≤ ·) keys)
    (List.pairwise_cons.mpr ⟨?_, List.pairwise_insertionSort (· ≤ ·) _⟩)
  intro key after
  rw [List.mem_insertionSort, List.mem_filter] at after
  exact ahead key after.1

namespace Reducer

variable {host : Host} {plain live : Reducer} {arrived : Nat → Str}

/-! ## No live block -/

/-- What is known of the two readings once no block is live in either. -/
structure Settled (plain live : Reducer) (arrived : Nat → Str) : Prop where
  idle : plain.live = none
  idleLive : live.live = none
  held : live.held = plain.held
  outcome :
    (live.counts.liveTextMismatch = 0 ∧ live.texts = plain.texts ∧
      ∀ oi, arrived oi ≠ [] → plain.Good oi (arrived oi)) ∨
    ((0 < live.counts.liveTextMismatch ∨ plain.texts.length < live.texts.length) ∧
      ∃ oi, arrived oi ≠ [] ∧ ¬plain.Good oi (arrived oi))

theorem Settled.agrees (settled : Settled plain live arrived) :
    (live.texts = plain.texts ∧ live.counts.liveTextMismatch = 0) ↔
      ∀ oi, arrived oi ≠ [] → plain.Good oi (arrived oi) := by
  cases settled.outcome with
  | inl clean => exact ⟨fun _ => clean.2.2, fun _ => ⟨clean.2.1, clean.1⟩⟩
  | inr dirty =>
      obtain ⟨more, oi, some, bad⟩ := dirty
      constructor
      · rintro ⟨texts, zero⟩
        rw [texts, zero] at more
        omega
      · intro goods
        exact absurd (goods oi some) bad

/-- The item that is released next, taken. -/
def takenAt (r : Reducer) (oi : Nat) : Reducer := { r with cursor := oi, held := r.held.erase oi }

theorem releaseAll_idle (r : Reducer) (idle : r.live = none) (oi : Nat) (rest : List Nat) :
    r.releaseAll host (oi :: rest) =
      (r.held.get? oi).bind fun item =>
        ((r.takenAt oi).releaseItem host oi item).bind (·.releaseAll host rest) := by
  rw [releaseAll]
  simp only [idle, Option.any_none, Bool.false_eq_true, if_false]
  cases r.held.get? oi with
  | none => rfl
  | some item =>
      simp only [Option.bind_some, takenAt]
      split <;> simp_all

theorem finished_releaseItem {r released : Reducer} (idle : r.live = none) {oi : Nat}
    {item : PyDict} (found : r.taken.releaseItem host oi item = some released) :
    released.finished = r.finished := by
  have fine : ¬Raises item := by
    intro raises
    rw [(releaseItem_raises host _ _ item).mpr raises] at found
    cases found
  obtain ⟨one, found', sent⟩ := sends_releaseItem host r.taken idle oi item fine
  cases found'.symm.trans found
  exact congrArg Control.finished sent.control

theorem settled_releaseItem (settled : Settled plain live arrived) {oi : Nat} {item : PyDict}
    {released : Reducer} (found : (plain.takenAt oi).releaseItem host oi item = some released) :
    ∃ released', (live.takenAt oi).releaseItem host oi item = some released' ∧
      Settled released released' arrived ∧ released.finished = plain.finished := by
  have fine : ¬Raises item := by
    intro raises
    rw [(releaseItem_raises host _ _ item).mpr raises] at found
    cases found
  obtain ⟨one, found', sent⟩ :=
    sends_releaseItem host (plain.takenAt oi) settled.idle oi item fine
  cases found'.symm.trans found
  obtain ⟨released', found', sent'⟩ :=
    sends_releaseItem host (live.takenAt oi) settled.idleLive oi item fine
  have finished : released.finished = plain.finished := congrArg Control.finished sent.control
  have held : released.held = plain.held.erase oi := congrArg Control.held sent.control
  have held' : released'.held = live.held.erase oi := congrArg Control.held sent'.control
  have plainTexts : released.texts = plain.texts ++ itemTexts item := sent.texts
  have liveTexts : released'.texts = live.texts ++ itemTexts item := sent'.texts
  have counted : released'.counts.liveTextMismatch = live.counts.liveTextMismatch :=
    sent'.mismatch
  refine ⟨released', found', ⟨sent.live, sent'.live, by rw [held, held', settled.held], ?_⟩,
    finished⟩
  unfold Good
  rw [counted, plainTexts, liveTexts, finished]
  simpa [Good] using settled.outcome

theorem settled_releaseAll (indexes : List Nat) (settled : Settled plain live arrived)
    {released : Reducer} (found : plain.releaseAll host indexes = some released) :
    ∃ released', live.releaseAll host indexes = some released' ∧
      Settled released released' arrived ∧ released.finished = plain.finished := by
  induction indexes generalizing plain live with
  | nil =>
      cases found
      exact ⟨live, rfl, settled, rfl⟩
  | cons oi rest ih =>
      rw [releaseAll_idle plain settled.idle] at found
      obtain ⟨item, held, found⟩ := Option.bind_eq_some_iff.mp found
      obtain ⟨once, taken, later⟩ := Option.bind_eq_some_iff.mp found
      obtain ⟨once', taken', settled', finished⟩ := settled_releaseItem settled taken
      obtain ⟨released', found', settled'', finished'⟩ := ih settled' later
      refine ⟨released', ?_, settled'', finished'.trans finished⟩
      rw [releaseAll_idle live settled.idleLive, settled.held, held, Option.bind_some, taken',
        Option.bind_some, found']

/-! ## What the fills leave -/

theorem settled_of_twin (twin : Twin plain live arrived) (idle : live.live = none) :
    Settled plain live arrived := by
  refine ⟨twin.idle, idle, twin.heldSame, ?_⟩
  cases twin.outcome with
  | inl clean =>
      obtain ⟨zero, texts, goods⟩ := clean
      refine .inl ⟨zero, by rw [texts, idle]; simp, fun oi some => goods oi ?_ some⟩
      by_contra beyond
      exact some (twin.nothing (Nat.not_lt.mp beyond) fun block here => by
        rw [idle] at here
        cases here)
  | inr dirty =>
      obtain ⟨more, -, oi, -, wrong⟩ := dirty
      refine .inr ⟨?_, oi, wrong⟩
      rwa [show live.liveCount = 0 by simp [liveCount, idle], Nat.add_zero] at more

/-- The plain reading's texts end before the live block. -/
theorem Twin.front (twin : Twin plain live arrived) {block : Live} (here : live.live = some block) :
    ∃ front, live.texts = front ++ [block.sent] ∧ plain.texts.length ≤ front.length := by
  obtain ⟨front, last⟩ := twin.last block here
  refine ⟨front, last, ?_⟩
  have total : live.texts.length = front.length + 1 := by
    rw [last, List.length_append]
    rfl
  cases twin.outcome with
  | inl clean =>
      have texts := congrArg List.length clean.2.1
      rw [total, here, List.length_append] at texts
      simp only [Option.map_some, Option.toList_some, List.length_singleton] at texts
      omega
  | inr dirty =>
      have short := dirty.2.1
      rw [total, show live.liveCount = 1 by simp [liveCount, here]] at short
      omega

/-- A live block whose index no item is finished at is closed with its text. -/
theorem settled_closeLive (twin : Twin plain live arrived) {block : Live}
    (here : live.live = some block) (absent : plain.held.get? plain.cursor = none) :
    Settled plain (live.closeLive none) arrived := by
  obtain ⟨texts, idle, control, mismatch⟩ := closeLive_keeps live none
  obtain ⟨front, last, short⟩ := twin.front here
  refine ⟨twin.idle, idle, (congrArg Control.held control).trans twin.heldSame,
    .inr ⟨.inr ?_, plain.cursor, ?_, ?_⟩⟩
  · rw [texts, last, List.length_append, List.length_singleton]
    omega
  · rw [twin.sent here]
    exact twin.nonempty block here
  · rintro ⟨item, found, -⟩
    rw [← (twin.waiting _ (Nat.le_refl _)).1, absent] at found
    cases found

/-- The live reading also holds an incomplete message, at the index of its block. -/
structure Extra (plain live : Reducer) (arrived : Nat → Str) : Prop where
  block : ∃ block front, live.live = some block ∧ block.oi = plain.cursor ∧
    live.texts = front ++ [block.sent] ∧ plain.texts.length ≤ front.length
  sent : arrived plain.cursor ≠ []
  idle : plain.live = none
  cursorSame : live.cursor = plain.cursor
  absent : plain.finished.get? plain.cursor = none
  item : ∃ item, live.held.get? plain.cursor = some item ∧
    isStr "message" (item.get? (lit "type")) = true ∧
    isStr "incomplete" (item.get? (lit "status")) = true
  others : live.held.erase plain.cursor = plain.held
  seen : ∀ oi, oi ∈ live.seen ↔ oi = plain.cursor ∨ oi ∈ plain.seen
  ahead : ∀ oi, (live.held.get? oi).isSome → plain.cursor ≤ oi
  waiting : ∀ oi, (live.held.get? oi).isSome → oi ∈ live.seen
  distinct : (live.held.map (·.1)).Nodup

theorem closeLive_idle {r : Reducer} (idle : r.live = none) (item : Option PyDict) :
    r.closeLive item = r := by
  unfold closeLive
  rw [idle]

/-- The release of the item whose block is live goes first. -/
theorem releaseAll_live {r : Reducer} {block : Live} (here : r.live = some block) {oi : Nat}
    (at_ : block.oi = oi) (rest : List Nat) :
    r.releaseAll host (oi :: rest) =
      (r.held.get? oi).bind fun item =>
        ((r.takenAt oi).releaseItem host oi item).bind (·.releaseAll host rest) := by
  rw [releaseAll]
  have same : (block.oi != oi) = false := by simp [at_]
  simp only [here, Option.any_some, same, Bool.false_eq_true, if_false]
  cases r.held.get? oi with
  | none => rfl
  | some item =>
      simp only [Option.bind_some, takenAt]
      split <;> simp_all

/-- Any other item's release is preceded by the end of the live block. -/
theorem releaseAll_closed {r : Reducer} {block : Live} (here : r.live = some block) {oi : Nat}
    (apart : block.oi ≠ oi) (rest : List Nat) :
    r.releaseAll host (oi :: rest) = (r.closeLive none).releaseAll host (oi :: rest) := by
  rw [releaseAll, releaseAll]
  have other : (block.oi != oi) = true := by simp [apart]
  simp only [here, Option.any_some, other, if_true, live_closeLive, Option.any_none,
    Bool.false_eq_true, if_false]

/-- The keys of the held items in order, where the least of them is known. -/
theorem held_sorted {held : Map Nat PyDict} {least : Nat} (distinct : (held.map (·.1)).Nodup)
    (found : (held.get? least).isSome) (ahead : ∀ oi, (held.get? oi).isSome → least ≤ oi) :
    (held.map (·.1)).insertionSort (· ≤ ·) =
      least :: ((held.erase least).map (·.1)).insertionSort (· ≤ ·) := by
  rw [insertionSort_of_least distinct (Map.mem_keys_iff.mpr found) fun key member =>
    ahead key (Map.mem_keys_iff.mp member), Map.erase_keys]

theorem settled_extra (extra : Extra plain live arrived) {released : Reducer}
    (found : plain.releaseAll host ((plain.held.map (·.1)).insertionSort (· ≤ ·)) = some released) :
    ∃ released', live.releaseAll host ((live.held.map (·.1)).insertionSort (· ≤ ·)) =
        some released' ∧
      Settled released (released'.closeLive none) arrived ∧
      released.finished = plain.finished := by
  obtain ⟨block, front, here, at_, last, short⟩ := extra.block
  obtain ⟨item, held, message, incomplete⟩ := extra.item
  have fine : ¬Raises item := fun raises => absurd (raises.1.symm.trans message) (by decide)
  have last' : (live.takenAt plain.cursor).texts = front ++ [block.sent] := last
  obtain ⟨once, taken, closes⟩ :=
    closes_releaseItem host (r := live.takenAt plain.cursor) here at_ last' fine
  have nothing : itemTexts item = [] := by simp [itemTexts, incomplete]
  have apart : ¬Extends item block.sent := fun extends_ =>
    absurd (extends_.2.1.symm.trans incomplete) (by decide)
  have settled : Settled plain once arrived := by
    refine ⟨extra.idle, closes.live, ?_, .inr ⟨?_, plain.cursor, extra.sent, ?_⟩⟩
    · rw [show once.held = live.held.erase plain.cursor from
        congrArg Control.held closes.control, extra.others]
    · have more := closes.other apart
      rw [nothing, List.length_nil] at more
      exact more.imp (Nat.lt_of_le_of_lt (Nat.zero_le _)) fun longer => by omega
    · rintro ⟨item, found, -⟩
      rw [extra.absent] at found
      cases found
  obtain ⟨released', found', settled', finished⟩ := settled_releaseAll _ settled found
  refine ⟨released', ?_, ?_, finished⟩
  · rw [held_sorted extra.distinct (by rw [held]; rfl) extra.ahead, releaseAll_live here at_, held,
      Option.bind_some, taken, Option.bind_some, extra.others]
    exact found'
  · rwa [closeLive_idle settled'.idleLive]

theorem settled_twin (twin : Twin plain live arrived) {released : Reducer}
    (found : plain.releaseAll host ((plain.held.map (·.1)).insertionSort (· ≤ ·)) = some released) :
    ∃ released', live.releaseAll host ((live.held.map (·.1)).insertionSort (· ≤ ·)) =
        some released' ∧
      Settled released (released'.closeLive none) arrived ∧
      released.finished = plain.finished := by
  rw [twin.heldSame]
  cases here : live.live with
  | none =>
      obtain ⟨released', found', settled, finished⟩ :=
        settled_releaseAll _ (settled_of_twin twin here) found
      exact ⟨released', found', by rwa [closeLive_idle settled.idleLive], finished⟩
  | some block =>
      have at_ : block.oi = plain.cursor := (twin.atCursor block here).trans twin.cursorSame
      cases held : plain.held.get? plain.cursor with
      | some item =>
          -- The block's item goes first in both readings.
          have order := held_sorted twin.distinct (by rw [held]; rfl) twin.ahead
          rw [order, releaseAll_idle plain twin.idle, held, Option.bind_some] at found
          obtain ⟨once, taken, later⟩ := Option.bind_eq_some_iff.mp found
          obtain ⟨once', taken', idle', next⟩ := twin_release twin held taken
          have moved := settled_of_twin next idle'
          have settled : Settled once once' arrived :=
            ⟨moved.idle, moved.idleLive, moved.held, moved.outcome⟩
          obtain ⟨released', found', settled', finished⟩ := settled_releaseAll _ settled later
          refine ⟨released', ?_, by rwa [closeLive_idle settled'.idleLive], finished.trans ?_⟩
          · rw [order, releaseAll_live here at_, twin.heldSame, held, Option.bind_some]
            have taken'' : (live.takenAt plain.cursor).releaseItem host plain.cursor item =
                some once' := by
              rw [← twin.cursorSame]
              exact taken'
            rw [taken'', Option.bind_some]
            exact found'
          · exact finished_releaseItem twin.idle taken
      | none =>
          have settled := settled_closeLive twin here held
          cases order : (plain.held.map (·.1)).insertionSort (· ≤ ·) with
          | nil =>
              rw [order] at found
              cases found
              exact ⟨live, rfl, settled, rfl⟩
          | cons first rest =>
              rw [order] at found
              obtain ⟨released', found', settled', finished⟩ := settled_releaseAll _ settled found
              refine ⟨released', ?_, by rwa [closeLive_idle settled'.idleLive], finished⟩
              have member : first ∈ plain.held.map (·.1) :=
                List.mem_insertionSort (· ≤ ·) |>.mp (order ▸ List.mem_cons_self)
              have apart : block.oi ≠ first := by
                intro same
                rw [Map.mem_keys_iff, ← same, at_, held] at member
                cases member
              rw [← found']
              exact releaseAll_closed here apart rest

/-! ## The final output -/

/-- A status by which an item of the final output counts as finished. -/
def settles (item : PyDict) : Bool :=
  match item.get? (lit "status") with
  | none | some .none => true
  | some _ => isStr "completed" (item.get? (lit "status"))

/-- An unfinished message, which closes its live block. -/
def keepsLive (item : PyDict) : Bool :=
  isStr "incomplete" (item.get? (lit "status")) && isStr "message" (item.get? (lit "type"))

theorem Extra.warn (extra : Extra plain live arrived) (what what' : Str) :
    Extra (plain.warn what) (live.warn what') arrived := by
  have left := quiet_warn plain what
  have right := quiet_warn live what'
  have plainControl := left.control
  have liveControl := right.control
  simp only [control, Control.mk.injEq] at plainControl liveControl
  obtain ⟨cursor, held, seen, finished, -⟩ := plainControl
  obtain ⟨cursor', held', seen', -⟩ := liveControl
  constructor
  case block => rw [right.live, cursor, right.texts, left.texts]; exact extra.block
  case sent => rw [cursor]; exact extra.sent
  case idle => rw [left.live]; exact extra.idle
  case cursorSame => rw [cursor', cursor]; exact extra.cursorSame
  case absent => rw [finished, cursor]; exact extra.absent
  case item => rw [held', cursor]; exact extra.item
  case others => rw [held', cursor, held]; exact extra.others
  case seen => rw [seen', cursor, seen]; exact extra.seen
  case ahead => rw [held', cursor]; exact extra.ahead
  case waiting => rw [held', seen']; exact extra.waiting
  case distinct => rw [held']; exact extra.distinct

theorem Extra.hold (extra : Extra plain live arrived) {oi : Nat} (unseen : oi ∉ plain.seen)
    (ahead : plain.cursor < oi) (item : PyDict) :
    Extra (plain.hold oi item) (live.hold oi item) arrived := by
  have apart : plain.cursor ≠ oi := Nat.ne_of_lt ahead
  have unseen' : oi ∉ live.seen := by
    rw [extra.seen]
    rintro (same | seen)
    · exact apart same.symm
    · exact unseen seen
  have fresh : live.held.get? oi = none := by
    cases found : live.held.get? oi with
    | none => rfl
    | some _ => exact absurd (extra.waiting oi (by rw [found]; rfl)) unseen'
  constructor
  case block => exact extra.block
  case sent => exact extra.sent
  case idle => exact extra.idle
  case cursorSame => exact extra.cursorSame
  case absent =>
      show Map.get? plain.cursor (Map.set oi item plain.finished) = none
      rw [Map.get?_set_ne apart]
      exact extra.absent
  case item =>
      show ∃ item', Map.get? plain.cursor (Map.set oi item live.held) = some item' ∧ _
      rw [Map.get?_set_ne apart]
      exact extra.item
  case others =>
      show Map.erase plain.cursor (Map.set oi item live.held) = Map.set oi item plain.held
      rw [← extra.others, Map.erase_set_comm apart]
  case seen =>
      intro other
      show other ∈ oi :: live.seen ↔ other = plain.cursor ∨ other ∈ oi :: plain.seen
      rw [List.mem_cons, List.mem_cons, extra.seen]
      tauto
  case ahead =>
      intro other found
      by_cases same : other = oi
      · rw [same]
        exact Nat.le_of_lt ahead
      · simp only [Reducer.hold, Map.get?_set_ne same] at found
        exact extra.ahead other found
  case waiting =>
      intro other found
      by_cases same : other = oi
      · exact same ▸ List.mem_cons_self
      · simp only [Reducer.hold, Map.get?_set_ne same] at found
        exact List.mem_cons_of_mem _ (extra.waiting other found)
  case distinct => exact Map.nodup_set item extra.distinct fresh

/-- The live reading alone holds the incomplete message that its block belongs to. -/
theorem extra_hold (twin : Twin plain live arrived) {block : Live} (here : live.live = some block)
    (unseen : plain.cursor ∉ plain.seen) {item : PyDict}
    (message : isStr "message" (item.get? (lit "type")) = true)
    (incomplete : isStr "incomplete" (item.get? (lit "status")) = true) :
    Extra plain (live.hold plain.cursor item) arrived := by
  obtain ⟨front, last, short⟩ := twin.front here
  have waiting := twin.waiting plain.cursor (Nat.le_refl _)
  have absent : plain.held.get? plain.cursor = none := by simpa [unseen] using waiting.2
  constructor
  case block =>
      exact ⟨block, front, here, (twin.atCursor block here).trans twin.cursorSame, last, short⟩
  case sent =>
      rw [twin.sent here]
      exact twin.nonempty block here
  case idle => exact twin.idle
  case cursorSame => exact twin.cursorSame
  case absent => rw [← waiting.1, absent]
  case item =>
      refine ⟨item, ?_, message, incomplete⟩
      show Map.get? plain.cursor (Map.set plain.cursor item live.held) = some item
      rw [Map.get?_set_self]
  case others =>
      show Map.erase plain.cursor (Map.set plain.cursor item live.held) = plain.held
      rw [twin.heldSame, Map.erase_set_of_absent _ absent]
  case seen =>
      intro other
      show other ∈ plain.cursor :: live.seen ↔ _
      rw [twin.seenSame, List.mem_cons]
  case ahead =>
      intro other found
      by_cases same : other = plain.cursor
      · exact Nat.le_of_eq same.symm
      · simp only [Reducer.hold, Map.get?_set_ne same, twin.heldSame] at found
        exact twin.ahead other found
  case waiting =>
      intro other found
      show other ∈ plain.cursor :: live.seen
      by_cases same : other = plain.cursor
      · exact same ▸ List.mem_cons_self
      · simp only [Reducer.hold, Map.get?_set_ne same, twin.heldSame] at found
        rw [twin.seenSame]
        exact List.mem_cons_of_mem _ ((twin.waiting other (twin.ahead other found)).2.mpr found)
  case distinct =>
      show ((Map.set plain.cursor item live.held).map (·.1)).Nodup
      rw [twin.heldSame]
      exact Map.nodup_set item twin.distinct absent

theorem warn_seen (r : Reducer) (what : Str) : (r.warn what).seen = r.seen :=
  congrArg Control.seen (quiet_warn r what).control

theorem warn_cursor (r : Reducer) (what : Str) : (r.warn what).cursor = r.cursor :=
  congrArg Control.cursor (quiet_warn r what).control

/-- What one fill does: it is skipped, with a warning or without, or held. -/
theorem fill_cases (r : Reducer) (entry : PyJson × Nat) :
    (r.fill entry = r ∧ (entry.1.dict? = none ∨ entry.2 ∈ r.seen ∨ entry.2 < r.cursor)) ∨
      ∃ item, entry.1.dict? = some item ∧ entry.2 ∉ r.seen ∧ r.cursor ≤ entry.2 ∧
        ((r.fill entry = r.warn wUnfinished ∧ settles item = false ∧
            (keepsLive item && r.live.any fun live => live.oi == entry.2) = false) ∨
          (r.fill entry = (r.warn wFilled).hold entry.2 item ∧
            (settles item || keepsLive item && r.live.any fun live => live.oi == entry.2) =
              true)) := by
  obtain ⟨it, pos⟩ := entry
  unfold fill
  dsimp only
  cases it.dict? with
  | none => exact .inl ⟨rfl, .inl rfl⟩
  | some item =>
      dsimp only
      split
      next skipped => exact .inl ⟨rfl, .inr skipped⟩
      next fresh =>
          rw [not_or, Nat.not_lt] at fresh
          refine .inr ⟨item, rfl, fresh.1, fresh.2, ?_⟩
          change ((if !settles item && !(keepsLive item && r.live.any fun live => live.oi == pos)
              then r.warn wUnfinished else (r.warn wFilled).hold pos item) = _ ∧ _) ∨
            ((if !settles item && !(keepsLive item && r.live.any fun live => live.oi == pos)
              then r.warn wUnfinished else (r.warn wFilled).hold pos item) = _ ∧ _)
          cases settles item <;>
            cases keepsLive item && r.live.any fun live => live.oi == pos <;> simp

theorem twin_fill (twin : Twin plain live arrived) (entry : PyJson × Nat) :
    Twin (plain.fill entry) (live.fill entry) arrived ∨
      Extra (plain.fill entry) (live.fill entry) arrived ∧ entry.2 = plain.cursor := by
  have plainCases := fill_cases plain entry
  have liveCases := fill_cases live entry
  rw [twin.seenSame, twin.cursorSame] at liveCases
  rcases plainCases with ⟨same, skipped⟩ | ⟨item, given, unseen, ahead, filled⟩
  · rcases liveCases with ⟨same', -⟩ | ⟨item, given, unseen, ahead, -⟩
    · rw [same, same']
      exact .inl twin
    · rcases skipped with absent | seen | before
      · cases absent.symm.trans given
      · exact absurd seen unseen
      · exact absurd before (Nat.not_lt.mpr ahead)
  · rcases liveCases with ⟨-, absent | seen | before⟩ | ⟨item', given', -, -, filled'⟩
    · cases absent.symm.trans given
    · exact absurd seen unseen
    · exact absurd before (Nat.not_lt.mpr ahead)
    · cases given.symm.trans given'
      rw [twin.idle, Option.any_none, Bool.and_false, Bool.or_false] at filled
      rcases filled with ⟨same, unsettled, -⟩ | ⟨same, settled⟩
      · rcases filled' with ⟨same', -, -⟩ | ⟨same', kept⟩
        · rw [same, same']
          exact .inl (twin_quiet twin (quiet_warn _ _) (quiet_warn _ _))
        · -- Only the live reading fills it: the message whose text was being sent.
          rw [unsettled, Bool.false_or, Bool.and_eq_true] at kept
          obtain ⟨block, here, at_⟩ :
              ∃ block, live.live = some block ∧ (block.oi == entry.2) = true := by
            cases here : live.live with
            | none =>
                rw [here] at kept
                cases kept.2
            | some block =>
                rw [here] at kept
                exact ⟨block, rfl, kept.2⟩
          have cursor : entry.2 = plain.cursor :=
            (beq_iff_eq.mp at_).symm.trans ((twin.atCursor block here).trans twin.cursorSame)
          obtain ⟨incomplete, message⟩ := (Bool.and_eq_true _ _).mp kept.1
          have warned := twin_quiet twin (quiet_warn plain wUnfinished) (quiet_warn live wFilled)
          have extra := extra_hold warned ((quiet_warn live wFilled).live.trans here)
            (by rw [warn_cursor, warn_seen, ← cursor]; exact unseen) message incomplete
          rw [same, same', cursor]
          rw [warn_cursor] at extra
          exact .inr ⟨extra, rfl⟩
      · rcases filled' with ⟨-, unsettled, -⟩ | ⟨same', -⟩
        · cases unsettled.symm.trans settled
        · have warned := twin_quiet twin (quiet_warn plain wFilled) (quiet_warn live wFilled)
          rw [same, same']
          refine .inl (twin_hold warned ?_ ?_ item)
          · rwa [warn_seen]
          · rwa [warn_cursor]

theorem extra_fill (extra : Extra plain live arrived) {entry : PyJson × Nat}
    (other : entry.2 ≠ plain.cursor) : Extra (plain.fill entry) (live.fill entry) arrived := by
  have plainCases := fill_cases plain entry
  have liveCases := fill_cases live entry
  obtain ⟨block, -, here, at_, -⟩ := extra.block
  have apart : (block.oi == entry.2) = false := by
    rw [at_]
    exact beq_false_of_ne other.symm
  simp only [extra.seen, or_iff_right other, extra.cursorSame, here, Option.any_some, apart,
    Bool.and_false, Bool.or_false] at liveCases
  rcases plainCases with ⟨same, skipped⟩ | ⟨item, given, unseen, ahead, filled⟩
  · rcases liveCases with ⟨same', -⟩ | ⟨item, given, unseen, ahead, -⟩
    · rwa [same, same']
    · rcases skipped with absent | seen | before
      · cases absent.symm.trans given
      · exact absurd seen unseen
      · exact absurd before (Nat.not_lt.mpr ahead)
  · rcases liveCases with ⟨-, absent | seen | before⟩ | ⟨item', given', -, -, filled'⟩
    · cases absent.symm.trans given
    · exact absurd seen unseen
    · exact absurd before (Nat.not_lt.mpr ahead)
    · cases given.symm.trans given'
      rw [extra.idle, Option.any_none, Bool.and_false, Bool.or_false] at filled
      rcases filled with ⟨same, unsettled, -⟩ | ⟨same, settled⟩
      · rcases filled' with ⟨same', -, -⟩ | ⟨-, settled⟩
        · rw [same, same']
          exact extra.warn _ _
        · cases unsettled.symm.trans settled
      · rcases filled' with ⟨-, unsettled, -⟩ | ⟨same', -⟩
        · cases unsettled.symm.trans settled
        · rw [same, same']
          refine (extra.warn _ _).hold ?_ ?_ item
          · rwa [warn_seen]
          · rw [warn_cursor]
            omega

theorem fill_cursor (r : Reducer) (entry : PyJson × Nat) : (r.fill entry).cursor = r.cursor := by
  rcases fill_cases r entry with ⟨same, -⟩ | ⟨item, -, -, -, ⟨same, -⟩ | ⟨same, -⟩⟩
  · rw [same]
  · rw [same, warn_cursor]
  · rw [same]
    exact warn_cursor r _

/-- The indexes of the final output are distinct, so only one entry is the live block's. -/
theorem filled_fills (entries : List (PyJson × Nat)) (distinct : (entries.map (·.2)).Nodup)
    (filled : Twin plain live arrived ∨
      Extra plain live arrived ∧ plain.cursor ∉ entries.map (·.2)) :
    Twin (entries.foldl fill plain) (entries.foldl fill live) arrived ∨
      Extra (entries.foldl fill plain) (entries.foldl fill live) arrived := by
  induction entries generalizing plain live with
  | nil => exact filled.imp id And.left
  | cons entry rest ih =>
      obtain ⟨fresh, distinct'⟩ := List.nodup_cons.mp distinct
      rw [List.foldl_cons, List.foldl_cons]
      refine ih distinct' ?_
      rw [fill_cursor]
      cases filled with
      | inl twin =>
          refine (twin_fill twin entry).imp id fun extra => ⟨extra.1, ?_⟩
          exact extra.2 ▸ fresh
      | inr extra =>
          obtain ⟨extra, once⟩ := extra
          rw [List.map_cons, List.mem_cons, not_or] at once
          exact .inr ⟨extra_fill extra (Ne.symm once.1), once.2⟩

/-- The terminal of a completed response, in both readings. -/
theorem twin_conclude (twin : Twin plain live arrived) (kind : TerminalKind)
    (reason : Option Str) (resp : PyDict) {ended : Reducer}
    (concluded : plain.conclude host kind reason resp = some ended) :
    ∃ ended', live.conclude host kind reason resp = some ended' ∧ ended'.terminal.isSome ∧
      ((ended'.texts = ended.texts ∧ ended'.counts.liveTextMismatch = 0) ↔
        ∀ oi, arrived oi ≠ [] → ended.Good oi (arrived oi)) := by
  unfold conclude at concluded ⊢
  dsimp only at concluded ⊢
  generalize ((resp.get? (lit "output")).bind PyJson.list?).getD [] = output at concluded ⊢
  have distinct : (output.zipIdx.map (·.2)).Nodup := by
    rw [List.zipIdx_map_snd]
    exact List.nodup_range'
  have filled := filled_fills output.zipIdx distinct (.inl twin)
  generalize output.zipIdx.foldl fill plain = plainFilled at concluded filled
  generalize output.zipIdx.foldl fill live = liveFilled at filled ⊢
  cases found : plainFilled.releaseAll host
      ((plainFilled.held.map (·.1)).insertionSort (· ≤ ·)) with
  | none =>
      rw [found] at concluded
      cases concluded
  | some released =>
      rw [found] at concluded
      cases concluded
      obtain ⟨released', found', settled, -⟩ :
          ∃ released', liveFilled.releaseAll host
              ((liveFilled.held.map (·.1)).insertionSort (· ≤ ·)) = some released' ∧
            Settled released (released'.closeLive none) arrived ∧
            released.finished = plainFilled.finished :=
        filled.elim (settled_twin · found) (settled_extra · found)
      refine ⟨_, by rw [found'], rfl, ?_⟩
      have plainKeeps := closeLive_keeps { released with cursor := released.cursor + 1 } none
      have liveKeeps := closeLive_keeps { released' with cursor := released'.cursor + 1 } none
      have liveKeeps' := closeLive_keeps released' none
      have agrees := settled.agrees
      rw [liveKeeps'.1, liveKeeps'.2.2.2] at agrees
      have finished : ({ released with cursor := released.cursor + 1 }.closeLive none).finished =
          released.finished := congrArg Control.finished plainKeeps.2.2.1
      have plainTexts : ({ released with cursor := released.cursor + 1 }.closeLive none).texts =
          released.texts := plainKeeps.1
      have liveTexts : ({ released' with cursor := released'.cursor + 1 }.closeLive none).texts =
          released'.texts := liveKeeps.1
      have mismatch : ({ released' with cursor := released'.cursor + 1 }.closeLive
          none).counts.liveTextMismatch = released'.counts.liveTextMismatch := liveKeeps.2.2.2
      unfold Good at agrees ⊢
      unfold texts at agrees plainTexts liveTexts ⊢
      dsimp only
      rw [plainTexts, liveTexts, mismatch, finished]
      exact agrees

/-! ## A whole response -/

/-- The event leaves both readings before their terminal. -/
def Goes (next : Option Reducer) (arrived : Nat → Str) (plain' : Reducer) : Prop :=
  ∃ live', next = some live' ∧ Twin plain' live' arrived

/-- The event ends both readings, and only what arrived decides whether they agree. -/
def Completes (next : Option Reducer) (arrived : Nat → Str) (plain' : Reducer) : Prop :=
  plain'.terminal.isSome ∧ ∃ live', next = some live' ∧ live'.terminal.isSome ∧
    ((live'.texts = plain'.texts ∧ live'.counts.liveTextMismatch = 0) ↔
      ∀ oi, arrived oi ≠ [] → plain'.Good oi (arrived oi))

/-- The event ends the plain reading, and not as completed. -/
def Breaks (plain' : Reducer) : Prop :=
  plain'.terminal.isSome ∧ plain'.terminal.map (·.kind) ≠ some .completed

theorem breaks_fail (r : Reducer) (err : BridgeError) (response : Option PyDict)
    {kind : TerminalKind} (other : kind ≠ .completed) (reason : Option Str) :
    Breaks (r.fail err response kind reason) := by
  refine ⟨rfl, ?_⟩
  show some kind ≠ some .completed
  simpa using other

theorem conclude_kind {r ended : Reducer} {kind : TerminalKind} {reason : Option Str}
    {resp : PyDict} (concluded : r.conclude host kind reason resp = some ended) :
    ended.terminal.map (·.kind) = some kind := by
  unfold conclude at concluded
  dsimp only at concluded
  split at concluded
  next => cases concluded
  next =>
      cases concluded
      rfl

theorem breaks_finishIncomplete {r ended : Reducer} {response : Option PyJson}
    (fed : r.finishIncomplete host response = some ended) : Breaks ended := by
  unfold finishIncomplete at fed
  dsimp only at fed
  split at fed
  next =>
      cases fed
      exact breaks_fail _ _ _ (by decide) _
  next =>
      have kind := conclude_kind fed
      constructor
      · cases found : ended.terminal with
        | none =>
            rw [found] at kind
            cases kind
        | some _ => rfl
      · rw [kind]
        decide

theorem twin_announce (twin : Twin plain live arrived) (d : PyDict) :
    Twin (plain.announce d) (live.announce d) arrived := by
  unfold announce
  split
  next id oi _ _ =>
      rw [twin.addedSame]
      exact twin_alike twin _ rfl rfl ⟨rfl, rfl⟩ ⟨rfl, rfl⟩ rfl
  next => exact twin

theorem quiet_created (r : Reducer) (d : PyDict) : Quiet r (r.created d) := by
  unfold created
  split <;> exact ⟨rfl, rfl, rfl, rfl⟩

theorem terminal_conclude {r ended : Reducer} {kind : TerminalKind} {reason : Option Str}
    {resp : PyDict} (concluded : r.conclude host kind reason resp = some ended) :
    ended.terminal.isSome := by
  have known := conclude_kind concluded
  cases found : ended.terminal with
  | none =>
      rw [found] at known
      cases known
  | some _ => rfl

/-- What an event of a known type brings to the index at the cursor. -/
def typedArrival (r : Reducer) (etype : Str) (d : PyDict) : Option (Nat × Str) :=
  if etype = lit "response.output_text.delta" then r.arrives d else none

/-- What one event of a known type does to both readings. -/
theorem twin_feedTyped (twin : Twin plain live arrived) (etype : Str) (d : PyDict)
    {plain' : Reducer} (fed : plain.feedTyped host etype d = some plain') :
    Goes (live.feedTyped host etype d) (grown arrived (plain.typedArrival etype d)) plain' ∨
      Completes (live.feedTyped host etype d) (grown arrived (plain.typedArrival etype d)) plain' ∨
      Breaks plain' := by
  by_cases delta : etype = lit "response.output_text.delta"
  · subst delta
    have plainSame : plain.feedTyped host (lit "response.output_text.delta") d =
        some (plain.liveDelta d) := rfl
    rw [plainSame, liveDelta_plain twin.plainText] at fed
    cases fed
    exact .inl ⟨live.liveDelta d, rfl, twin_delta twin d⟩
  have nothing : grown arrived (plain.typedArrival etype d) = arrived := by
    rw [typedArrival, if_neg delta, grown_none]
  rw [nothing]
  unfold feedTyped at fed ⊢
  by_cases created : etype = lit "response.created"
  · rw [if_pos created] at fed ⊢
    cases fed
    exact .inl ⟨_, rfl, twin_quiet twin (quiet_created _ d) (quiet_created _ d)⟩
  rw [if_neg created] at fed ⊢
  by_cases announced : etype = lit "response.output_item.added"
  · rw [if_pos announced] at fed ⊢
    cases fed
    exact .inl ⟨_, rfl, twin_announce twin d⟩
  rw [if_neg announced, if_neg delta] at fed ⊢
  by_cases done : etype = lit "response.output_item.done"
  · rw [if_pos done] at fed ⊢
    exact .inl (twin_done twin d fed)
  rw [if_neg done] at fed ⊢
  by_cases completed : etype = lit "response.completed"
  · rw [if_pos completed] at fed ⊢
    exact .inr (.inl ⟨terminal_conclude fed, twin_conclude twin _ _ _ fed⟩)
  rw [if_neg completed] at fed ⊢
  by_cases incomplete : etype = lit "response.incomplete"
  · rw [if_pos incomplete] at fed
    exact .inr (.inr (breaks_finishIncomplete fed))
  rw [if_neg incomplete] at fed ⊢
  by_cases failed : etype = lit "response.failed"
  · rw [if_pos failed] at fed
    cases fed
    exact .inr (.inr (breaks_fail _ _ _ (by decide) _))
  rw [if_neg failed] at fed ⊢
  by_cases error : etype = lit "error"
  · rw [if_pos error] at fed
    cases fed
    exact .inr (.inr (breaks_fail _ _ _ (by decide) _))
  rw [if_neg error] at fed ⊢
  by_cases unknown : etype ∉ ignoredEvents
  · rw [if_pos unknown] at fed ⊢
    cases fed
    exact .inl ⟨_, rfl, twin_quiet twin ⟨rfl, rfl, rfl, rfl⟩ ⟨rfl, rfl, rfl, rfl⟩⟩
  rw [if_neg unknown] at fed ⊢
  cases fed
  exact .inl ⟨live, rfl, twin⟩

/-- What one event does to both readings. -/
theorem twin_feed (twin : Twin plain live arrived) (ev : SseEvent) {plain' : Reducer}
    (fed : plain.feed host ev = some plain') :
    Goes (live.feed host ev) (grown arrived (plain.arrival ev)) plain' ∨
      Completes (live.feed host ev) (grown arrived (plain.arrival ev)) plain' ∨
      Breaks plain' := by
  unfold feed at fed ⊢
  simp only [twin.unended, twin.unendedLive, Option.isSome_none, Bool.false_eq_true, if_false]
    at fed ⊢
  unfold Reducer.arrival
  simp only [twin.unended, Option.isSome_none, Bool.false_eq_true, false_or]
  cases data : ev.data with
  | none =>
      rw [data] at fed
      cases fed
      simp only [Option.bind_none, ite_self, grown_none]
      exact .inl ⟨live, rfl, twin⟩
  | some d =>
      cases type : ev.type with
      | none =>
          rw [data, type] at fed
          cases fed
          simp only [ne_eq, reduceCtorEq, not_false_eq_true, if_true, grown_none]
          exact .inl ⟨live, rfl, twin⟩
      | some etype =>
          rw [data, type] at fed
          have arrival : (if some etype ≠ some (lit "response.output_text.delta") then none
              else (some d).bind plain.arrives) = plain.typedArrival etype d := by
            unfold typedArrival
            by_cases delta : etype = lit "response.output_text.delta" <;> simp [delta]
          rw [arrival]
          exact twin_feedTyped twin etype d fed

end Reducer

/-- What arrives at one index, one event after another. -/
theorem arriving_cons (host : Host) (ev : SseEvent) (rest : List SseEvent) (r : Reducer)
    (arrived : Nat → Str) (oi : Nat) :
    arrived oi ++ arriving host (ev :: rest) r oi =
      Reducer.grown arrived (r.arrival ev) oi ++
        match r.feed host ev with
        | none => []
        | some r => if r.terminal.isSome then [] else arriving host rest r oi := by
  rw [arriving, ← List.append_assoc]
  rfl

/-- The two readings of a completed response agree exactly where all that arrived was
gone on with. -/
theorem twin_feedAll (host : Host) (events : List SseEvent) {plain live ended : Reducer}
    {arrived : Nat → Str} (twin : Reducer.Twin plain live arrived)
    (fed : feedAll host events plain = some ended)
    (completed : ended.terminal.map (·.kind) = some .completed) :
    ∃ ended', feedAll host events live = some ended' ∧
      ((ended'.texts = ended.texts ∧ ended'.counts.liveTextMismatch = 0) ↔
        ∀ oi, arrived oi ++ arriving host events plain oi ≠ [] →
          ended.Good oi (arrived oi ++ arriving host events plain oi)) := by
  induction events generalizing plain live arrived with
  | nil =>
      cases fed
      rw [twin.unended] at completed
      cases completed
  | cons ev rest ih =>
      unfold feedAll at fed ⊢
      cases one : plain.feed host ev with
      | none =>
          rw [one] at fed
          cases fed
      | some plain' =>
          simp only [arriving_cons, one] at fed ⊢
          rcases Reducer.twin_feed twin ev one with goes | completes | breaks
          · obtain ⟨live', next, twin'⟩ := goes
            simp only [next, twin'.unended, twin'.unendedLive, Option.isSome_none,
              Bool.false_eq_true, if_false] at fed ⊢
            exact ih twin' fed
          · obtain ⟨some, live', next, some', agrees⟩ := completes
            rw [if_pos some] at fed
            cases fed
            refine ⟨live', by simp [next, some'], ?_⟩
            simp only [some, if_true, List.append_nil]
            exact agrees
          · rw [if_pos breaks.1] at fed
            cases fed
            exact absurd completed breaks.2

/-- A response's live text changes none of its texts exactly where, at every index,
what arrives while the index is at the release cursor goes on to the first text of the
message finished there: a delta that comes before is dropped, and is not made up for. -/
theorem liveText_agrees (host : Host) (events : List SseEvent) (nameMap : Map Str Str)
    (toolsRequired : List Str) {ended : Reducer}
    (fed : feedAll host events (.new nameMap toolsRequired false) = some ended)
    (completed : ended.terminal.map (·.kind) = some .completed) :
    ∃ ended', feedAll host events (.new nameMap toolsRequired true) = some ended' ∧
      ((ended'.texts = ended.texts ∧ ended'.counts.liveTextMismatch = 0) ↔
        Continued host events (.new nameMap toolsRequired false) ended) :=
  twin_feedAll host events (Reducer.twin_start nameMap toolsRequired) fed completed

/-! ## A delta before its item's turn -/

/-- The finished messages of the done events, with the indexes that they name. -/
def doneMessages (events : List SseEvent) : List (Option Nat × PyDict) :=
  events.filterMap fun ev =>
    if ev.type = some (lit "response.output_item.done") then
      match ev.data with
      | none => none
      | some d =>
          ((d.get? (lit "item")).bind PyJson.dict?).bind fun item =>
            if isStr "message" (item.get? (lit "type")) then
              some (index? (d.get? (lit "output_index")), item)
            else none
    else none

/-- The first part of a message, where it is text. -/
def firstPart (item : PyDict) : Option Str :=
  match ((item.get? (lit "content")).bind PyJson.list?).bind (·.head?) with
  | some (.dict part) =>
      if isStr "output_text" (Map.get? (lit "type") part) then
        (Map.get? (lit "text") part).bind PyJson.str?
      else none
  | _ => none

/-- The deltas of one index before its done event, in order. -/
def deltasOf (oi : Nat) : List SseEvent → Str
  | [] => []
  | ev :: rest =>
      match ev.data, ev.type with
      | some d, some etype =>
          if index? (d.get? (lit "output_index")) ≠ some oi then deltasOf oi rest
          else if etype = lit "response.output_item.done" then []
          else if etype = lit "response.output_text.delta" then
            ((d.get? (lit "delta")).bind PyJson.str?).getD [] ++ deltasOf oi rest
          else deltasOf oi rest
      | _, _ => deltasOf oi rest

/-- A completed message at an explicit index, whose deltas begin its first part. -/
def announces (events : List SseEvent) (done : Option Nat × PyDict) : Bool :=
  match done.1, firstPart done.2 with
  | some oi, some text =>
      isStr "completed" (done.2.get? (lit "status")) && text.startsWith (deltasOf oi events)
  | _, _ => false

/-- The finished messages have distinct indexes, and each is announced by its deltas. -/
def Announced (events : List SseEvent) : Prop :=
  ((doneMessages events).map (·.1)).Nodup ∧
    (doneMessages events).all (announces events) = true

def deltaEvent (oi : Nat) (text : String) : SseEvent where
  name := none
  type := some (lit "response.output_text.delta")
  data := some [(lit "type", .str (lit "response.output_text.delta")),
    (lit "output_index", .int oi), (lit "content_index", .int 0), (lit "delta", .str (lit text))]

def doneEvent (oi : Nat) (text : String) : SseEvent where
  name := none
  type := some (lit "response.output_item.done")
  data := some [(lit "type", .str (lit "response.output_item.done")),
    (lit "output_index", .int oi),
    (lit "item", .dict [(lit "type", .str (lit "message")), (lit "status", .str (lit "completed")),
      (lit "content", .list [.dict [(lit "type", .str (lit "output_text")),
        (lit "text", .str (lit text))]])])]

def completedEvent : SseEvent where
  name := none
  type := some (lit "response.completed")
  data := some [(lit "type", .str (lit "response.completed")),
    (lit "response", .dict [(lit "output", .list [])])]

/-- The second message's text begins while the first is not finished. -/
def crossedEvents : List SseEvent :=
  [deltaEvent 1 "Hel", doneEvent 0 "A", deltaEvent 1 "lo", doneEvent 1 "Hello", completedEvent]

def straightEvents : List SseEvent :=
  [deltaEvent 0 "Hel", deltaEvent 0 "lo", doneEvent 0 "Hello", doneEvent 1 "A", completedEvent]

/-- CPython's limits. -/
def pythonHost : Host := ⟨⟨1000, 4300⟩, fun _ => none⟩

/-- The second message is sent as `lo`, and the mismatch is counted. -/
theorem liveText_crossed :
    Announced crossedEvents ∧
      (feedAll pythonHost crossedEvents (.new [] [] false)).map (fun r =>
          (r.terminal.map (·.kind), r.texts)) =
        some (some .completed, [lit "A", lit "Hello"]) ∧
      (feedAll pythonHost crossedEvents (.new [] [] true)).map (fun r =>
          (r.texts, r.counts.liveTextMismatch)) = some ([lit "A", lit "lo"], 1) :=
  ⟨⟨by decide +kernel, by decide +kernel⟩, by decide +kernel, by decide +kernel⟩

theorem liveText_agrees_straight :
    ∃ ended', feedAll pythonHost straightEvents (.new [] [] true) = some ended' ∧
      ((ended'.texts = ((feedAll pythonHost straightEvents (.new [] [] false)).get
            (by decide +kernel)).texts ∧ ended'.counts.liveTextMismatch = 0) ↔
        Continued pythonHost straightEvents (.new [] [] false)
          ((feedAll pythonHost straightEvents (.new [] [] false)).get (by decide +kernel))) :=
  liveText_agrees pythonHost straightEvents [] [] (Option.some_get _).symm (by decide +kernel)

end Ccrc.CodexBridge
