import Ccrc.CodexBridge.ReducerTexts

/-! A reply read with live text and without it. The texts agree, and no mismatch is
counted, exactly where what arrives while an index is at the release cursor goes on
to the text of the message finished there. -/

set_option autoImplicit false

namespace Ccrc.CodexBridge

open Library
open Library.Str (lit)

/-! ## What arrives at the cursor -/

/-- The text that a delta event brings to the index at the cursor. -/
def Reducer.arrives (r : Reducer) (d : PyDict) : Option (Nat × Str) :=
  match r.itemIndex (d.get? (lit "output_index")) (d.get? (lit "item_id")) with
  | none => none
  | some oi =>
      if oi ≠ r.cursor ∨ oi ∈ r.seen then none
      else
        match nonemptyStr? (d.get? (lit "delta")) with
        | none => none
        | some delta =>
            if index? (some ((d.get? (lit "content_index")).getD (.int 0))) ≠ some 0 then none
            else some (oi, delta)

/-- The same of any event. -/
def Reducer.arrival (r : Reducer) (ev : SseEvent) : Option (Nat × Str) :=
  if r.terminal.isSome ∨ ev.type ≠ some (lit "response.output_text.delta") then none
  else ev.data.bind r.arrives

/-- The deltas that arrive at one index, in order, while the plain reading has its
cursor there. -/
def arriving (host : Host) : List SseEvent → Reducer → Nat → Str
  | [], _, _ => []
  | ev :: rest, r, oi =>
      let now := match r.arrival ev with
        | some (index, text) => if index = oi then text else []
        | none => []
      now ++
        match r.feed host ev with
        | none => []
        | some r => if r.terminal.isSome then [] else arriving host rest r oi

/-- What arrived at each index goes on to the first text of the message finished there. -/
def Continued (host : Host) (events : List SseEvent) (start final : Reducer) : Prop :=
  ∀ oi, arriving host events start oi ≠ [] →
    ∃ item, final.finished.get? oi = some item ∧
      Reducer.Extends item (arriving host events start oi)

namespace Reducer

theorem liveDelta_plain {r : Reducer} (plain : r.liveText = false) (d : PyDict) :
    r.liveDelta d = r := by simp [liveDelta, plain]

theorem liveDelta_live {r : Reducer} (live : r.liveText = true) (d : PyDict) :
    r.liveDelta d =
      match r.arrives d with
      | none => r
      | some (oi, text) => (r.openLive oi).1.sendLive (r.openLive oi).2 text := by
  unfold liveDelta arrives
  simp only [live, Bool.not_true, Bool.false_eq_true, if_false]
  split
  next absent => simp only [absent]
  next oi named =>
      split
      next out => simp only [named, if_pos out]
      next at_ =>
          split
          next absent => simp only [named, if_neg at_, absent]
          next delta given =>
              split
              next later => simp only [named, if_neg at_, given, if_pos later]
              next first => simp only [named, if_neg at_, given, if_neg first]

/-! ## The two readings -/

/-- The finished item at an index is the message whose text arrived. -/
def Good (r : Reducer) (oi : Nat) (text : Str) : Prop :=
  ∃ item, r.finished.get? oi = some item ∧ Extends item text

/-- The blocks that are open, as a number. -/
def liveCount (r : Reducer) : Nat := if r.live.isSome then 1 else 0

/-- No difference so far. -/
def Clean (plain live : Reducer) (arrived : Nat → Str) : Prop :=
  live.counts.liveTextMismatch = 0 ∧
    live.texts = plain.texts ++ (live.live.map (·.sent)).toList ∧
    ∀ oi, oi < plain.cursor → arrived oi ≠ [] → plain.Good oi (arrived oi)

/-- A difference that stays: it is counted, or there is a block too many. -/
def Dirty (plain live : Reducer) (arrived : Nat → Str) : Prop :=
  (0 < live.counts.liveTextMismatch ∨
      plain.texts.length + live.liveCount < live.texts.length) ∧
    plain.texts.length + live.liveCount ≤ live.texts.length ∧
    ∃ oi, oi < plain.cursor ∧ arrived oi ≠ [] ∧ ¬plain.Good oi (arrived oi)

/-- The plain and the live reading of one response, before its terminal. -/
structure Twin (plain live : Reducer) (arrived : Nat → Str) : Prop where
  control : live.control = { plain.control with liveText := true }
  plainText : plain.liveText = false
  idle : plain.live = none
  unended : plain.terminal = none
  atCursor : live.LiveAt live.cursor
  last : live.LastLive
  sending : ∀ oi, plain.cursor ≤ oi →
    arrived oi = ((live.live.filter fun block => block.oi == oi).map (·.sent)).getD []
  nonempty : ∀ block, live.live = some block → block.sent ≠ []
  waiting : ∀ oi, plain.cursor ≤ oi → plain.held.get? oi = plain.finished.get? oi ∧
    (oi ∈ plain.seen ↔ (plain.held.get? oi).isSome)
  ahead : ∀ oi, (plain.held.get? oi).isSome → plain.cursor ≤ oi
  distinct : (plain.held.map (·.1)).Nodup
  outcome : Clean plain live arrived ∨ Dirty plain live arrived

variable {host : Host} {plain live : Reducer} {arrived : Nat → Str}

theorem twin_start (nameMap : Map Str Str) (toolsRequired : List Str) :
    Twin (new nameMap toolsRequired false) (new nameMap toolsRequired true) fun _ => [] where
  control := rfl
  plainText := rfl
  idle := rfl
  unended := rfl
  atCursor := fun _ found => (by cases found)
  last := fun _ found => (by cases found)
  sending := fun _ _ => rfl
  nonempty := fun _ found => (by cases found)
  waiting := fun _ _ => ⟨rfl, by simp [new]⟩
  ahead := fun _ found => (by cases found)
  distinct := List.nodup_nil
  outcome := .inl ⟨rfl, rfl, fun _ _ some => absurd rfl some⟩

theorem Twin.cursorSame (twin : Twin plain live arrived) : live.cursor = plain.cursor :=
  congrArg Control.cursor twin.control

theorem Twin.heldSame (twin : Twin plain live arrived) : live.held = plain.held :=
  congrArg Control.held twin.control

theorem Twin.seenSame (twin : Twin plain live arrived) : live.seen = plain.seen :=
  congrArg Control.seen twin.control

theorem Twin.addedSame (twin : Twin plain live arrived) : live.added = plain.added :=
  congrArg Control.added twin.control

theorem Twin.unendedLive (twin : Twin plain live arrived) : live.terminal = none :=
  (congrArg Control.terminal twin.control).trans twin.unended

theorem Twin.isLive (twin : Twin plain live arrived) : live.liveText = true :=
  congrArg Control.liveText twin.control

/-- Nothing has arrived beyond the cursor, nor at it where no block is live. -/
theorem Twin.nothing (twin : Twin plain live arrived) {oi : Nat} (ahead : plain.cursor ≤ oi)
    (elsewhere : ∀ block, live.live = some block → oi ≠ plain.cursor) : arrived oi = [] := by
  rw [twin.sending oi ahead]
  cases here : live.live with
  | none => rfl
  | some block =>
      have at_ : block.oi = plain.cursor := (twin.atCursor block here).trans twin.cursorSame
      have apart : (block.oi == oi) = false := by
        rw [at_]
        exact beq_false_of_ne (elsewhere block here).symm
      simp [Option.filter, apart]

/-- What has arrived at the cursor is what the live block has sent. -/
theorem Twin.sent (twin : Twin plain live arrived) {block : Live} (here : live.live = some block) :
    arrived plain.cursor = block.sent := by
  have at_ : block.oi = plain.cursor := (twin.atCursor block here).trans twin.cursorSame
  rw [twin.sending plain.cursor (Nat.le_refl _), here]
  simp [Option.filter, at_]

/-! ## Releasing one item -/

/-- The item at the cursor is taken out of those held. -/
def taken (r : Reducer) : Reducer := { r with held := r.held.erase r.cursor }

def moved (r : Reducer) : Reducer := { r with cursor := r.cursor + 1 }

/-- The twin past the item at the cursor, whatever the two releases did. -/
theorem twin_released (twin : Twin plain live arrived) {released released' : Reducer}
    {texts : List Str} (sent : Sends plain.taken released texts)
    (control' : released'.control = live.taken.control) (idle' : released'.live = none)
    (outcome : Clean released.moved released'.moved arrived ∨
      Dirty released.moved released'.moved arrived) :
    Twin released.moved released'.moved arrived := by
  have plainControl : released.cursor = plain.cursor ∧
      released.held = plain.held.erase plain.cursor ∧ released.seen = plain.seen ∧
      released.finished = plain.finished ∧ released.added = plain.added ∧
      released.terminal = plain.terminal ∧ released.liveText = plain.liveText := by
    simpa only [control, taken, Control.mk.injEq] using sent.control
  have liveControl : released'.cursor = live.cursor ∧
      released'.held = live.held.erase live.cursor ∧ released'.seen = live.seen ∧
      released'.finished = live.finished ∧ released'.added = live.added ∧
      released'.terminal = live.terminal ∧ released'.liveText = live.liveText := by
    simpa only [control, taken, Control.mk.injEq] using control'
  have twins : live.cursor = plain.cursor ∧ live.held = plain.held ∧ live.seen = plain.seen ∧
      live.finished = plain.finished ∧ live.added = plain.added ∧
      live.terminal = plain.terminal ∧ live.liveText = true := by
    simpa only [control, Control.mk.injEq] using twin.control
  obtain ⟨cursor, held, seen, finished, added, terminal, plainText⟩ := plainControl
  have nothing : ∀ oi, plain.cursor + 1 ≤ oi → arrived oi = [] := fun oi ahead =>
    twin.nothing (by omega) fun _ _ => by omega
  have beyond : ∀ oi, released.moved.cursor ≤ oi → plain.cursor + 1 ≤ oi := by
    intro oi ahead
    rwa [moved, cursor] at ahead
  constructor
  case control =>
      simp only [control, moved, Control.mk.injEq]
      simp [liveControl, cursor, held, seen, finished, added, terminal, twins]
  case plainText => exact plainText.trans twin.plainText
  case idle => exact sent.live
  case unended => exact terminal.trans twin.unended
  case atCursor =>
      intro block found
      cases idle'.symm.trans found
  case last =>
      intro block found
      cases idle'.symm.trans found
  case sending =>
      intro oi ahead
      rw [nothing oi (beyond oi ahead), show released'.moved.live = none from idle']
      rfl
  case nonempty =>
      intro block found
      cases idle'.symm.trans found
  case waiting =>
      intro oi ahead
      have bound := beyond oi ahead
      simp only [moved, held, seen, finished,
        Map.get?_erase_ne (show oi ≠ plain.cursor by omega)]
      exact twin.waiting oi (by omega)
  case ahead =>
      intro oi found
      simp only [moved, held] at found
      by_cases same : oi = plain.cursor
      · rw [same, Map.get?_erase_self] at found
        cases found
      · rw [Map.get?_erase_ne same] at found
        have bound := twin.ahead oi found
        rw [moved, cursor]
        show plain.cursor + 1 ≤ oi
        omega
  case distinct =>
      simp only [moved, held, Map.erase_keys]
      exact twin.distinct.filter _
  case outcome => exact outcome

/-- The item at the cursor is released in both readings. -/
theorem twin_release (twin : Twin plain live arrived) {item : PyDict}
    (held : plain.held.get? plain.cursor = some item) {released : Reducer}
    (found : plain.taken.releaseItem host plain.cursor item = some released) :
    ∃ released', live.taken.releaseItem host live.cursor item = some released' ∧
      released'.live = none ∧ Twin released.moved released'.moved arrived := by
  have fine : ¬Raises item := by
    intro raises
    rw [(releaseItem_raises host _ _ item).mpr raises] at found
    cases found
  obtain ⟨one, found', sent⟩ := sends_releaseItem host plain.taken twin.idle plain.cursor item fine
  cases found'.symm.trans found
  have cursor : released.cursor = plain.cursor := congrArg Control.cursor sent.control
  have finished : released.finished = plain.finished := congrArg Control.finished sent.control
  have good : ∀ oi text, released.moved.Good oi text ↔ plain.Good oi text := by
    intro oi text
    rw [Good, Good, moved, finished]
  have before : ∀ oi, oi < released.moved.cursor → oi ≠ plain.cursor → oi < plain.cursor := by
    intro oi bound other
    rw [moved, cursor] at bound
    have bound' : oi < plain.cursor + 1 := bound
    omega
  have within : ∀ oi, oi < plain.cursor → oi < released.moved.cursor := by
    intro oi bound
    rw [moved, cursor]
    exact Nat.lt_succ_of_lt bound
  cases here : live.live with
  | none =>
      obtain ⟨released', found', sent'⟩ :=
        sends_releaseItem host live.taken here live.cursor item fine
      have nothing : arrived plain.cursor = [] := twin.nothing (Nat.le_refl _) (by simp [here])
      refine ⟨released', found', sent'.live, twin_released twin sent sent'.control sent'.live ?_⟩
      have plainTexts : released.texts = plain.texts ++ itemTexts item := sent.texts
      have liveTexts : released'.texts = live.texts ++ itemTexts item := sent'.texts
      have counted : released'.counts.liveTextMismatch = live.counts.liveTextMismatch :=
        sent'.mismatch
      cases twin.outcome with
      | inl clean =>
          obtain ⟨zero, texts, goods⟩ := clean
          refine .inl ⟨counted.trans zero, ?_, fun oi bound some => ?_⟩
          · show released'.texts = released.texts ++ (released'.live.map (·.sent)).toList
            rw [liveTexts, texts, plainTexts, sent'.live, here]
            simp
          · have other : oi ≠ plain.cursor := fun same => some (same ▸ nothing)
            exact (good oi _).mpr (goods oi (before oi bound other) some)
      | inr dirty =>
          obtain ⟨more, length, oi, bound, some, bad⟩ := dirty
          have opened : released'.moved.liveCount = live.liveCount := by
            simp [liveCount, moved, sent'.live, here]
          refine .inr ⟨?_, ?_, oi, within oi bound, some, fun fine => bad ((good oi _).mp fine)⟩
          · cases more with
            | inl mismatched => exact .inl (counted ▸ mismatched)
            | inr longer =>
                refine .inr ?_
                show released.texts.length + _ < released'.texts.length
                rw [plainTexts, liveTexts, opened, List.length_append, List.length_append]
                omega
          · show released.texts.length + _ ≤ released'.texts.length
            rw [plainTexts, liveTexts, opened, List.length_append, List.length_append]
            omega
  | some block =>
      obtain ⟨front, last⟩ := twin.last block here
      obtain ⟨released', found', closes⟩ :=
        closes_releaseItem host (r := live.taken) here (twin.atCursor block here) last fine
      have arrived' : arrived plain.cursor = block.sent := twin.sent here
      have some' : block.sent ≠ [] := twin.nonempty block here
      have goodHere : plain.Good plain.cursor block.sent ↔ Extends item block.sent := by
        rw [Good, ← (twin.waiting _ (Nat.le_refl _)).1, held]
        simp
      have inside : plain.cursor < released.moved.cursor := by
        rw [moved, cursor]
        exact Nat.lt_succ_self _
      refine ⟨released', found', closes.live, twin_released twin sent closes.control closes.live ?_⟩
      have plainTexts : released.texts = plain.texts ++ itemTexts item := sent.texts
      have opened : released'.moved.liveCount = 0 := by simp [liveCount, moved, closes.live]
      have counted : live.counts.liveTextMismatch ≤ released'.counts.liveTextMismatch :=
        closes.counted
      have length := closes.length
      have plainLength : released.texts.length = plain.texts.length + (itemTexts item).length := by
        rw [plainTexts, List.length_append]
      have liveLength : live.texts.length = front.length + 1 := by
        rw [show live.texts = front ++ [block.sent] from last, List.length_append]
        rfl
      cases twin.outcome with
      | inl clean =>
          obtain ⟨zero, texts, goods⟩ := clean
          have same : front = plain.texts := by
            have both := (show live.texts = front ++ [block.sent] from last).symm.trans texts
            rw [here] at both
            exact List.append_inj_left' both rfl
          by_cases continued : Extends item block.sent
          · obtain ⟨texts', counts⟩ := closes.extended continued
            refine .inl ⟨counts.trans zero, ?_, fun oi bound some => ?_⟩
            · show released'.texts = released.texts ++ (released'.live.map (·.sent)).toList
              rw [texts', closes.live, plainTexts, same]
              simp
            · by_cases other : oi = plain.cursor
              · rw [other, arrived']
                exact (good _ _).mpr (goodHere.mpr continued)
              · exact (good oi _).mpr (goods oi (before oi bound other) some)
          · have wrong := closes.other continued
            have zero' : live.taken.counts.liveTextMismatch = 0 := zero
            refine .inr ⟨?_, ?_, plain.cursor, inside, arrived' ▸ some', ?_⟩
            · show _ ∨ released.texts.length + _ < released'.texts.length
              rw [opened, plainLength, ← same]
              exact wrong.imp (by intro more; rw [zero'] at more; exact more) id
            · show released.texts.length + _ ≤ released'.texts.length
              rw [opened, plainLength, ← same]
              exact length
            · rw [arrived']
              exact fun fine => continued (goodHere.mp ((good _ _).mp fine))
      | inr dirty =>
          obtain ⟨more, short, oi, bound, some, bad⟩ := dirty
          have count : live.liveCount = 1 := by simp [liveCount, here]
          rw [count, liveLength] at more short
          refine .inr ⟨?_, ?_, oi, within oi bound, some, fun fine => bad ((good oi _).mp fine)⟩
          · cases more with
            | inl mismatched => exact .inl (Nat.lt_of_lt_of_le mismatched counted)
            | inr longer =>
                refine .inr ?_
                show released.texts.length + _ < released'.texts.length
                omega
          · show released.texts.length + _ ≤ released'.texts.length
            omega

/-! ## Events before the terminal -/

/-- An operation that only the announced indexes and what nothing here reads see. -/
theorem twin_alike (twin : Twin plain live arrived) (added : Map Str Nat) {plain' live' : Reducer}
    (plainSame : plain'.control = { plain.control with added := added })
    (liveSame : live'.control = { live.control with added := added })
    (outs : plain'.out = plain.out ∧ live'.out = live.out)
    (lives : plain'.live = plain.live ∧ live'.live = live.live)
    (counted : live'.counts.liveTextMismatch = live.counts.liveTextMismatch) :
    Twin plain' live' arrived := by
  have plainControl : plain'.cursor = plain.cursor ∧ plain'.held = plain.held ∧
      plain'.seen = plain.seen ∧ plain'.finished = plain.finished ∧ plain'.added = added ∧
      plain'.terminal = plain.terminal ∧ plain'.liveText = plain.liveText := by
    simpa only [control, Control.mk.injEq] using plainSame
  have liveCursor : live'.cursor = live.cursor := congrArg Control.cursor liveSame
  obtain ⟨cursor, held, seen, finished, -, terminal, plainText⟩ := plainControl
  have texts : plain'.texts = plain.texts ∧ live'.texts = live.texts := by
    simp only [Reducer.texts, outs.1, outs.2, and_self]
  constructor
  case control => rw [liveSame, twin.control, plainSame]
  case plainText => rw [plainText, twin.plainText]
  case idle => rw [lives.1, twin.idle]
  case unended => rw [terminal, twin.unended]
  case atCursor =>
      intro block found
      rw [lives.2] at found
      rw [liveCursor]
      exact twin.atCursor block found
  case last =>
      intro block found
      rw [lives.2] at found
      rw [texts.2]
      exact twin.last block found
  case sending =>
      intro oi ahead
      rw [cursor] at ahead
      rw [lives.2]
      exact twin.sending oi ahead
  case nonempty =>
      intro block found
      rw [lives.2] at found
      exact twin.nonempty block found
  case waiting =>
      intro oi ahead
      rw [cursor] at ahead
      rw [held, seen, finished]
      exact twin.waiting oi ahead
  case ahead =>
      intro oi found
      rw [held] at found
      rw [cursor]
      exact twin.ahead oi found
  case distinct =>
      rw [held]
      exact twin.distinct
  case outcome =>
      have outcome := twin.outcome
      unfold Clean Dirty Good liveCount at *
      rw [texts.1, texts.2, lives.2, counted, cursor, finished]
      exact outcome

theorem twin_quiet (twin : Twin plain live arrived) {plain' live' : Reducer}
    (left : Quiet plain plain') (right : Quiet live live') : Twin plain' live' arrived := by
  refine twin_alike twin plain.added ?_ ?_ ⟨left.out, right.out⟩
    ⟨left.live, right.live⟩ right.mismatch
  · exact left.control
  · rw [right.control, ← twin.addedSame]
    rfl

/-- Both readings hold a new finished item. -/
theorem twin_hold (twin : Twin plain live arrived) {oi : Nat} (unseen : oi ∉ plain.seen)
    (ahead : plain.cursor ≤ oi) (item : PyDict) :
    Twin (plain.hold oi item) (live.hold oi item) arrived := by
  have absent : plain.held.get? oi = none := by
    have waiting := (twin.waiting oi ahead).2
    simpa [unseen] using waiting
  have twins : live.cursor = plain.cursor ∧ live.held = plain.held ∧ live.seen = plain.seen ∧
      live.finished = plain.finished ∧ live.added = plain.added ∧
      live.terminal = plain.terminal ∧ live.liveText = true := by
    simpa only [control, Control.mk.injEq] using twin.control
  constructor
  case control =>
      simp only [control, hold, Control.mk.injEq]
      simp [twins]
  case plainText => exact twin.plainText
  case idle => exact twin.idle
  case unended => exact twin.unended
  case atCursor => exact twin.atCursor
  case last => exact twin.last
  case sending => exact twin.sending
  case nonempty => exact twin.nonempty
  case waiting =>
      intro other bound
      simp only [hold]
      by_cases same : other = oi
      · simp [same]
      · rw [Map.get?_set_ne same, Map.get?_set_ne same, List.mem_cons, or_iff_right same]
        exact twin.waiting other bound
  case ahead =>
      intro other found
      simp only [hold] at found
      by_cases same : other = oi
      · exact same ▸ ahead
      · rw [Map.get?_set_ne same] at found
        exact twin.ahead other found
  case distinct => exact Map.nodup_set item twin.distinct absent
  case outcome =>
      have keeps : ∀ other, other < plain.cursor → ∀ text,
          (plain.hold oi item).Good other text ↔ plain.Good other text := by
        intro other bound text
        have apart : other ≠ oi := by omega
        simp only [Good, hold, Map.get?_set_ne apart]
      cases twin.outcome with
      | inl clean =>
          obtain ⟨zero, texts, goods⟩ := clean
          exact .inl ⟨zero, texts, fun other bound some =>
            (keeps other bound _).mpr (goods other bound some)⟩
      | inr dirty =>
          obtain ⟨more, length, other, bound, some, bad⟩ := dirty
          exact .inr ⟨more, length, other, bound, some,
            fun fine => bad ((keeps other bound _).mp fine)⟩

/-- Both readings release what is held, as far as the first gap. -/
theorem twin_releaseHeld (turns : Nat) (twin : Twin plain live arrived) {plain' : Reducer}
    (released : plain.releaseHeld host turns = some plain') :
    ∃ live', live.releaseHeld host turns = some live' ∧ Twin plain' live' arrived := by
  induction turns generalizing plain live with
  | zero =>
      cases released
      exact ⟨live, rfl, twin⟩
  | succ turns ih =>
      unfold releaseHeld at released ⊢
      rw [twin.heldSame, twin.cursorSame]
      cases held : plain.held.get? plain.cursor with
      | none =>
          rw [held] at released
          cases released
          exact ⟨live, rfl, twin⟩
      | some item =>
          rw [held] at released
          cases found : plain.taken.releaseItem host plain.cursor item with
          | none =>
              rw [taken] at found
              simp only [found] at released
              cases released
          | some once =>
              obtain ⟨once', found', -, next⟩ := twin_release twin held found
              rw [taken] at found found'
              simp only [found] at released
              rw [twin.cursorSame, twin.heldSame] at found'
              simp only [found']
              exact ih next released

theorem twin_done (twin : Twin plain live arrived) (d : PyDict) {plain' : Reducer}
    (fed : plain.done host d = some plain') :
    ∃ live', live.done host d = some live' ∧ Twin plain' live' arrived := by
  unfold done at fed ⊢
  cases given : (d.get? (lit "item")).bind PyJson.dict? with
  | none =>
      rw [given] at fed
      cases fed
      exact ⟨_, rfl, twin_quiet twin (quiet_warn _ _) (quiet_warn _ _)⟩
  | some item =>
      rw [given] at fed
      have index : ∀ named id, live.itemIndex named id = plain.itemIndex named id := by
        intro named id
        simp only [itemIndex, twin.addedSame]
      have nextSame : live.nextIndex = plain.nextIndex := by
        simp only [nextIndex, twin.seenSame, twin.cursorSame]
      simp only [index, nextSame, twin.seenSame, twin.cursorSame] at fed ⊢
      generalize (plain.itemIndex _ _).getD _ = oi at fed ⊢
      split
      next repeated =>
          rw [if_pos repeated] at fed
          cases fed
          exact ⟨_, rfl, twin_quiet twin (quiet_warn _ _) (quiet_warn _ _)⟩
      next fresh =>
          rw [if_neg fresh] at fed
          rw [not_or, Nat.not_lt] at fresh
          have held := twin_hold twin fresh.1 fresh.2 item
          rw [held.heldSame]
          exact twin_releaseHeld _ held fed

/-- What a delta that is sent leaves. -/
theorem sent_openLive {r : Reducer} (last : r.LastLive) (oi : Nat) (text : Str) :
    ∃ front block, r.texts = front ++ (r.live.map (·.sent)).toList ∧
      ((r.openLive oi).1.sendLive (r.openLive oi).2 text).texts = front ++ [block.sent] ∧
      ((r.openLive oi).1.sendLive (r.openLive oi).2 text).live = some block ∧
      block.oi = (r.live.map (·.oi)).getD oi ∧
      block.sent = (r.live.map (·.sent)).getD [] ++ text := by
  unfold openLive
  cases here : r.live with
  | none =>
      have opened : (r.openBlock .text).texts = r.texts ++ [[]] := by
        simp [texts, textsOf, openBlock, textStep]
      refine ⟨r.texts, { oi := oi, block := r.blocks, sent := text }, by simp, ?_, ?_, rfl, ?_⟩
      · exact @texts_sendLive _ { oi := oi, block := r.blocks, sent := [] } _ opened text
      · simp [sendLive]
      · simp
  | some live =>
      obtain ⟨front, texts⟩ := last live here
      exact ⟨front, { live with sent := live.sent ++ text }, texts, texts_sendLive texts text, rfl,
        rfl, rfl⟩

/-- What the event adds to what arrived. -/
def grown (arrived : Nat → Str) (arrival : Option (Nat × Str)) (oi : Nat) : Str :=
  arrived oi ++
    match arrival with
    | some (index, text) => if index = oi then text else []
    | none => []

theorem grown_none (arrived : Nat → Str) : grown arrived none = arrived := by
  funext oi
  simp [grown]

theorem arrives_cursor {r : Reducer} {d : PyDict} {oi : Nat} {text : Str}
    (arrives : r.arrives d = some (oi, text)) : oi = r.cursor ∧ text ≠ [] := by
  unfold Reducer.arrives at arrives
  split at arrives
  next => cases arrives
  next index _ =>
      split at arrives
      next => cases arrives
      next at_ =>
          split at arrives
          next => cases arrives
          next delta given =>
              split at arrives
              next => cases arrives
              next =>
                  cases arrives
                  rw [not_or, not_not] at at_
                  refine ⟨at_.1, ?_⟩
                  simpa using (Option.filter_eq_some_iff.mp given).2

theorem twin_delta (twin : Twin plain live arrived) (d : PyDict) :
    Twin plain (live.liveDelta d) (grown arrived (plain.arrives d)) := by
  have same : live.arrives d = plain.arrives d := by
    simp only [Reducer.arrives, itemIndex, twin.addedSame, twin.cursorSame, twin.seenSame]
  rw [liveDelta_live twin.isLive, same]
  cases arrives : plain.arrives d with
  | none => rwa [grown_none]
  | some pair =>
      obtain ⟨oi, text⟩ := pair
      obtain ⟨rfl, some⟩ := arrives_cursor arrives
      dsimp only
      obtain ⟨front, block, before, after, live', at_, sent⟩ :=
        sent_openLive twin.last plain.cursor text
      have control' : ((live.openLive plain.cursor).1.sendLive
          (live.openLive plain.cursor).2 text).control = live.control := by
        unfold openLive
        split <;> rfl
      have counts' : ((live.openLive plain.cursor).1.sendLive
          (live.openLive plain.cursor).2 text).counts = live.counts := by
        unfold openLive
        split <;> rfl
      generalize (live.openLive plain.cursor).1.sendLive (live.openLive plain.cursor).2 text = next
        at after live' control' counts' ⊢
      have atCursor : block.oi = plain.cursor := by
        rw [at_]
        cases here : live.live with
        | none => rfl
        | some earlier => exact (twin.atCursor earlier here).trans twin.cursorSame
      have elsewhere : ∀ oi, oi ≠ plain.cursor →
          grown arrived (Option.some (plain.cursor, text)) oi = arrived oi := by
        intro oi other
        simp [grown, Ne.symm other]
      have here : grown arrived (Option.some (plain.cursor, text)) plain.cursor = block.sent := by
        rw [sent]
        simp only [grown, if_true]
        rw [twin.sending plain.cursor (Nat.le_refl _)]
        cases open_ : live.live with
        | none => rfl
        | some earlier =>
            have at' : earlier.oi = plain.cursor :=
              (twin.atCursor earlier open_).trans twin.cursorSame
            simp [Option.filter, at']
      constructor
      case control => rw [control', twin.control]
      case plainText => exact twin.plainText
      case idle => exact twin.idle
      case unended => exact twin.unended
      case atCursor =>
          intro other found
          cases live'.symm.trans found
          exact atCursor.trans (twin.cursorSame.symm.trans
            (congrArg Control.cursor control').symm)
      case last =>
          intro other found
          cases live'.symm.trans found
          exact ⟨front, after⟩
      case sending =>
          intro oi ahead
          rw [live']
          by_cases same : oi = plain.cursor
          · rw [same, here]
            simp [Option.filter, atCursor]
          · have apart : (block.oi == oi) = false := by
              rw [atCursor]
              exact beq_false_of_ne (Ne.symm same)
            rw [elsewhere oi same, twin.nothing ahead fun _ _ => same]
            simp [Option.filter, apart]
      case nonempty =>
          intro other found
          cases live'.symm.trans found
          rw [sent]
          simp [some]
      case waiting => exact twin.waiting
      case ahead => exact twin.ahead
      case distinct => exact twin.distinct
      case outcome =>
          cases twin.outcome with
          | inl clean =>
              obtain ⟨zero, texts, goods⟩ := clean
              refine .inl ⟨by rw [counts']; exact zero, ?_, fun oi bound => ?_⟩
              · have fronts : front = plain.texts := List.append_cancel_right (before.symm.trans texts)
                rw [after, live', fronts]
                rfl
              · rw [elsewhere oi (Nat.ne_of_lt bound)]
                exact goods oi bound
          | inr dirty =>
              obtain ⟨more, length, oi, bound, wrong⟩ := dirty
              have opened : next.liveCount = 1 := by simp [liveCount, live']
              have total : next.texts.length = front.length + 1 := by
                rw [after, List.length_append]
                rfl
              have was : live.texts.length = front.length + live.liveCount := by
                rw [before, List.length_append, liveCount]
                cases live.live <;> rfl
              rw [was] at more length
              refine .inr ⟨?_, by omega, oi, bound, ?_⟩
              · rw [counts']
                exact more.imp id fun longer => by omega
              · rw [elsewhere oi (Nat.ne_of_lt bound)]
                exact wrong

end Reducer

end Ccrc.CodexBridge
