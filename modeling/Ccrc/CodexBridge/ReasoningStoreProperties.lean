import Ccrc.CodexBridge.ReleasesProperties
import Ccrc.Library.Run

/-! The row of a text after a session's replies is the one of the last reply that
emitted it, where every message is sent as one text block. -/

set_option autoImplicit false

namespace Ccrc.CodexBridge

open Library
open Library.Str (lit)

namespace ReasoningStore

/-! ## Cleaning -/

theorem cleanItem_cleanItem {item kept : PyDict} (clean : cleanItem item = some kept) :
    cleanItem kept = some kept := by
  unfold cleanItem at clean
  split at clean
  next =>
      obtain ⟨encrypted, found, rfl⟩ := Option.map_eq_some_iff.mp clean
      have nonempty : encrypted ≠ [] := by simpa using (Option.filter_eq_some_iff.mp found).2
      cases (item.get? (lit "id")).bind PyJson.str? with
      | none => simp [cleanItem, isStr, Map.get?, PyJson.str?, nonemptyStr?, nonempty, lit]
      | some id => simp [cleanItem, isStr, Map.get?, PyJson.str?, nonemptyStr?, nonempty, lit]
  next => cases clean

theorem cleanTurn_cleanTurn (turn : Turn) : cleanTurn (cleanTurn turn) = cleanTurn turn := by
  have items : (turn.items.filterMap cleanItem).filterMap cleanItem =
      turn.items.filterMap cleanItem := by
    induction turn.items with
    | nil => rfl
    | cons item items ih =>
        cases clean : cleanItem item with
        | none => simpa [clean] using ih
        | some kept => simp [clean, cleanItem_cleanItem clean, ih]
  simp [cleanTurn, items, Option.filter_filter]

/-! ## The rows of one reply -/

theorem callKey_ne_textKey (session text callId : Str) :
    callKey callId ≠ textKey session text := by
  intro same
  have heads : some (Str.point 'c') = some (Str.point 't') := congrArg List.head? same
  exact absurd heads (by decide)

theorem row_of_get? {rows rows' : Rows} {key : Str} (same : rows'.get? key = rows.get? key) :
    row rows' key = row rows key := by rw [row, same, row]

variable {session text : Str}

/-- No other one of the texts has the key of `text`. -/
def Alone (session text : Str) (texts : List Str) : Prop :=
  ∀ other ∈ texts, textKey session other = textKey session text → other = text

theorem fold_reasoning (named : session ≠ []) (entries : List (PyDict × Option ReplayKey))
    (alone : ∀ entry ∈ entries, ∀ other, entry.2 = some (.text other) →
      textKey session other = textKey session text → other = text) (rows : Rows) :
    row (entries.foldl (addReasoning session) rows) (textKey session text) =
      ⟨(row rows (textKey session text)).items ++
          (entries.filter fun entry => entry.2 = some (.text text)).map (·.1),
        (row rows (textKey session text)).phase⟩ := by
  induction entries generalizing rows with
  | nil => simp
  | cons entry entries ih =>
      obtain ⟨item, keyed⟩ := entry
      have rest := ih fun entry member => alone entry (List.mem_cons_of_mem _ member)
      rw [List.foldl_cons, rest]
      cases keyed with
      | none => simp [addReasoning]
      | some given =>
          cases given with
          | call callId =>
              have kept : row (addItem rows (callKey callId) item) (textKey session text) =
                  row rows (textKey session text) :=
                row_of_get? (Map.get?_set_ne (callKey_ne_textKey session text callId).symm _ _)
              simp [addReasoning, kept]
          | text other =>
              by_cases same : other = text
              · simp [addReasoning, named, same, addItem, row]
              · have apart : textKey session text ≠ textKey session other := fun keys =>
                  same (alone _ List.mem_cons_self other rfl keys.symm)
                have kept : row (addItem rows (textKey session other) item)
                    (textKey session text) = row rows (textKey session text) :=
                  row_of_get? (Map.get?_set_ne apart _ _)
                simp [addReasoning, named, same, kept]

theorem fold_unkeyed (named : session ≠ []) (entries : List (PyDict × Option ReplayKey))
    (others : ∀ entry ∈ entries, ∀ other, entry.2 = some (.text other) →
      textKey session other ≠ textKey session text) (rows : Rows) :
    (entries.foldl (addReasoning session) rows).get? (textKey session text) =
      rows.get? (textKey session text) := by
  induction entries generalizing rows with
  | nil => rfl
  | cons entry entries ih =>
      obtain ⟨item, keyed⟩ := entry
      rw [List.foldl_cons, ih fun entry member => others entry (List.mem_cons_of_mem _ member)]
      cases keyed with
      | none => rfl
      | some given =>
          cases given with
          | call callId => exact Map.get?_set_ne (callKey_ne_textKey session text callId).symm _ _
          | text other =>
              rw [addReasoning]
              simp only [named, if_false]
              exact Map.get?_set_ne (others _ List.mem_cons_self other rfl).symm _ _

theorem fold_others (phases : Map Str Str) (texts : List Str)
    (others : ∀ other ∈ texts, textKey session other ≠ textKey session text) (rows : Rows) :
    (texts.foldl (addText session phases) rows).get? (textKey session text) =
      rows.get? (textKey session text) := by
  induction texts generalizing rows with
  | nil => rfl
  | cons other texts ih =>
      rw [List.foldl_cons, ih fun other member => others other (List.mem_cons_of_mem _ member)]
      unfold addText
      split
      next => rfl
      next => exact Map.get?_set_ne (others other List.mem_cons_self).symm _ _

theorem fold_texts (phases : Map Str Str) (nonempty : text ≠ []) (texts : List Str)
    (alone : Alone session text texts) (member : text ∈ texts) (rows : Rows) :
    (texts.foldl (addText session phases) rows).get? (textKey session text) =
      some ⟨(row rows (textKey session text)).items,
        ((phases.get? text).filter (· ≠ [])).or (row rows (textKey session text)).phase⟩ := by
  induction texts generalizing rows with
  | nil => cases member
  | cons other texts ih =>
      have alone' : Alone session text texts := fun other member =>
        alone other (List.mem_cons_of_mem _ member)
      rw [List.foldl_cons]
      by_cases here : other = text
      · subst here
        by_cases again : other ∈ texts
        · rw [ih alone' again]
          simp [addText, nonempty, row, ← Option.or_assoc]
        · rw [fold_others phases texts fun next member keys =>
            again (alone' next member keys ▸ member)]
          simp [addText, nonempty]
      · have later : text ∈ texts := (List.mem_cons.mp member).resolve_left (Ne.symm here)
        have apart : textKey session text ≠ textKey session other := fun keys =>
          here (alone other List.mem_cons_self keys.symm)
        have kept : (addText session phases rows other).get? (textKey session text) =
            rows.get? (textKey session text) := by
          unfold addText
          split
          next => rfl
          next => exact Map.get?_set_ne apart _ _
        rw [ih alone' later, row_of_get? kept]

theorem fold_distinct {α : Type} (step : Rows → α → Rows)
    (keeps : ∀ rows entry, (rows.map (·.1)).Nodup → ((step rows entry).map (·.1)).Nodup)
    (entries : List α) (rows : Rows) (distinct : (rows.map (·.1)).Nodup) :
    ((entries.foldl step rows).map (·.1)).Nodup := by
  induction entries generalizing rows with
  | nil => exact distinct
  | cons entry entries ih => exact ih _ (keeps rows entry distinct)

theorem replyRows_distinct (r : Reducer) (session : Str) :
    ((replyRows r session).map (·.1)).Nodup := by
  have keyed := fold_distinct (addReasoning session) (fun rows entry distinct => by
    unfold addReasoning
    split
    next => exact distinct
    next => exact Map.distinct_set _ _ distinct
    next =>
        split
        next => exact distinct
        next => exact Map.distinct_set _ _ distinct) r.reasoning [] List.nodup_nil
  unfold replyRows
  dsimp only
  split
  next => exact keyed
  next =>
      refine fold_distinct _ (fun rows entry distinct => ?_) _ _ keyed
      unfold addText
      split
      next => exact distinct
      next => exact Map.distinct_set _ _ distinct

theorem get?_puts (rows : Rows) (distinct : (rows.map (·.1)).Nodup) (store : Rows) (key : Str) :
    (rows.foldl (fun store entry => put store entry.1 entry.2) store).get? key =
      ((rows.get? key).map cleanTurn).or (store.get? key) := by
  induction rows generalizing store with
  | nil => rfl
  | cons entry rows ih =>
      obtain ⟨held, turn⟩ := entry
      obtain ⟨fresh, distinct⟩ := List.nodup_cons.mp distinct
      rw [List.foldl_cons, ih distinct]
      by_cases same : held = key
      · subst same
        have absent : Map.get? held rows = none := by
          simpa [Map.mem_keys_iff] using fresh
        simp [absent, put, Map.get?]
      · simp [put, Map.get?, same, Map.get?_set_ne (Ne.symm same)]

/-- The emitted texts are the recorded ones. -/
theorem mem_emittedTexts {r : Reducer} :
    text ∈ emittedTexts r ↔ ∃ oi, r.emittedText.get? oi = some text := by
  simp only [emittedTexts, List.mem_filterMap, List.mem_insertionSort]
  constructor
  · rintro ⟨oi, -, found⟩
    exact ⟨oi, found⟩
  · rintro ⟨oi, found⟩
    exact ⟨oi, Map.mem_keys_iff.mpr (by simp [found]), found⟩

theorem remember_get? (store : Rows) (r : Reducer) (session key : Str) :
    (remember store r (some session)).get? key =
      (((replyRows r session).get? key).map cleanTurn).or (store.get? key) :=
  get?_puts _ (replyRows_distinct r session) store key

/-- The reasoning items that a reducer keyed to a text. -/
def itemsOf (r : Reducer) (text : Str) : List PyDict :=
  (r.reasoning.filter fun entry => entry.2 = some (.text text)).map (·.1)

/-- The row of a text that the reply emitted. -/
theorem replyRows_emitted {trace : List Released} {r : Reducer} (idle : r.live = none)
    (remembers : Reducer.Remembers trace r) (named : session ≠ [])
    (alone : Alone session text r.texts) (emitted : text ∈ r.texts) :
    (replyRows r session).get? (textKey session text) =
      some ⟨itemsOf r text, phaseOf trace text⟩ := by
  have closed := Reducer.closedTexts_idle idle
  have recorded : ∀ text, text ∈ emittedTexts r ↔ text ∈ r.texts := by
    intro text
    rw [mem_emittedTexts, ← remembers.recorded, closed]
  have nonempty : text ≠ [] := remembers.nonempty text (closed ▸ emitted)
  have items := fold_reasoning named r.reasoning (fun entry member other keyed =>
    alone other (closed ▸ remembers.keyed other ⟨entry, member, keyed⟩)) []
  unfold replyRows
  dsimp only
  rw [if_neg named, fold_texts r.phases nonempty _ (fun other member =>
    alone other ((recorded other).mp member)) ((recorded text).mpr emitted), items,
    remembers.phases]
  cases found : phaseOf trace text with
  | none => simp [row, itemsOf]
  | some phase => simp [row, itemsOf, phaseOf_nonempty found]

theorem replyRows_other {trace : List Released} {r : Reducer} (idle : r.live = none)
    (remembers : Reducer.Remembers trace r) (named : session ≠ [])
    (alone : Alone session text r.texts) (absent : text ∉ r.texts) :
    (replyRows r session).get? (textKey session text) = none := by
  have closed := Reducer.closedTexts_idle idle
  have others : ∀ other ∈ r.texts, textKey session other ≠ textKey session text :=
    fun other member keys => absent (alone other member keys ▸ member)
  unfold replyRows
  dsimp only
  rw [if_neg named, fold_others, fold_unkeyed named]
  · rfl
  · exact fun entry member other keyed =>
      others other (closed ▸ remembers.keyed other ⟨entry, member, keyed⟩)
  · intro other member
    refine others other ?_
    rwa [mem_emittedTexts, ← remembers.recorded, closed] at member

end ReasoningStore

/-! ## A session -/

open ReasoningStore

/-- Of every text the row is the one of the last reply that emitted it: the reasoning
items keyed to it, and the phase of its message. -/
def TextsRemembered (host : Host) (session : Str) (store : Rows) (replies : List Reply) : Prop :=
  ∀ before reply after text, replies = before ++ reply :: after → text ∈ reply.texts host →
    (∀ later ∈ after, text ∉ later.texts host) →
    ReasoningStore.get (runFrom (Reply.remember host session) store replies)
        (textKey session text) =
      some (cleanTurn ⟨reply.keyedTo host text, phaseOf (reply.releases host) text⟩)

/-- Two texts of the session have two keys. -/
def KeysApart (host : Host) (session : Str) (replies : List Reply) : Prop :=
  ∀ first ∈ replies.flatMap (·.texts host), ∀ second ∈ replies.flatMap (·.texts host),
    textKey session first = textKey session second → first = second

instance (host : Host) (session : Str) (replies : List Reply) :
    Decidable (KeysApart host session replies) :=
  inferInstanceAs (Decidable (∀ first ∈ _, ∀ second ∈ _, _))

namespace Reply

variable {host : Host} {session text : Str} {reply : Reply}

/-- A reply that ended remembers its releases. -/
theorem remembers_of_ends (ended : reply.ends host = true) (one : reply.oneBlock host = true) :
    ∃ r, reply.reduced host = some r ∧ r.live = none ∧
      Reducer.Remembers (reply.releases host) r := by
  unfold ends at ended
  cases reduced : reply.reduced host with
  | none =>
      rw [reduced] at ended
      cases ended
  | some r =>
      rw [reduced, Option.any_some] at ended
      have isOver : r.terminal.isSome := by
        cases terminal : r.terminal with
        | none =>
            rw [terminal] at ended
            cases ended
        | some terminal => rfl
      have sound := (feedAll_advances host reply.events
        (Reducer.sound_new reply.nameMap reply.toolsRequired reply.liveText) reduced).1
      have standing := standing_feedAll host reply.events
        (Reducer.tracked_new reply.nameMap reply.toolsRequired reply.liveText) rfl
        (List.all_eq_true.mp one) reduced
      exact ⟨r, rfl, sound.settled isOver, standing.1⟩

theorem remember_ended (ended : reply.ends host = true) {r : Reducer}
    (reduced : reply.reduced host = some r) (store : Rows) :
    reply.remember host session store = ReasoningStore.remember store r (some session) := by
  simp [remember, ended, reduced]

theorem remember_emitted (named : session ≠ []) (ended : reply.ends host = true)
    (one : reply.oneBlock host = true) (alone : Alone session text (reply.texts host))
    (emitted : text ∈ reply.texts host) (store : Rows) :
    (reply.remember host session store).get? (textKey session text) =
      some (cleanTurn ⟨reply.keyedTo host text, phaseOf (reply.releases host) text⟩) := by
  obtain ⟨r, reduced, idle, remembers⟩ := remembers_of_ends ended one
  have texts : reply.texts host = r.texts := by simp [Reply.texts, reduced]
  have items : reply.keyedTo host text = itemsOf r text := by simp [keyedTo, reduced, itemsOf]
  rw [texts] at alone emitted
  rw [remember_ended ended reduced, remember_get?,
    replyRows_emitted idle remembers named alone emitted, items]
  rfl

theorem remember_other (named : session ≠ []) (ended : reply.ends host = true)
    (one : reply.oneBlock host = true) (alone : Alone session text (reply.texts host))
    (absent : text ∉ reply.texts host) (store : Rows) :
    (reply.remember host session store).get? (textKey session text) =
      store.get? (textKey session text) := by
  obtain ⟨r, reduced, idle, remembers⟩ := remembers_of_ends ended one
  have texts : reply.texts host = r.texts := by simp [Reply.texts, reduced]
  rw [texts] at alone absent
  rw [remember_ended ended reduced, remember_get?,
    replyRows_other idle remembers named alone absent]
  rfl

/-- Replies that do not emit the text leave its row. -/
theorem run_others (named : session ≠ []) (replies : List Reply)
    (ended : ∀ reply ∈ replies, reply.ends host = true)
    (one : ∀ reply ∈ replies, reply.oneBlock host = true)
    (alone : ∀ reply ∈ replies, Alone session text (reply.texts host))
    (absent : ∀ reply ∈ replies, text ∉ reply.texts host) (store : Rows) :
    (runFrom (Reply.remember host session) store replies).get? (textKey session text) =
      store.get? (textKey session text) := by
  induction replies generalizing store with
  | nil => rfl
  | cons reply replies ih =>
      rw [runFrom_cons, ih (fun reply member => ended reply (List.mem_cons_of_mem _ member))
        (fun reply member => one reply (List.mem_cons_of_mem _ member))
        (fun reply member => alone reply (List.mem_cons_of_mem _ member))
        (fun reply member => absent reply (List.mem_cons_of_mem _ member))]
      exact remember_other named (ended _ List.mem_cons_self) (one _ List.mem_cons_self)
        (alone _ List.mem_cons_self) (absent _ List.mem_cons_self) store

end Reply

/-- Where every message is sent as one text block at most and no two texts share a key,
the row of every text is the last reply's. -/
theorem texts_remembered (host : Host) (session : Str) (named : session ≠ []) (store : Rows)
    (replies : List Reply) (ended : ∀ reply ∈ replies, reply.ends host = true)
    (one : ∀ reply ∈ replies, reply.oneBlock host = true) (apart : KeysApart host session replies) :
    TextsRemembered host session store replies := by
  intro before reply after text split emitted last
  have here : reply ∈ replies := by simp [split]
  have alone : ∀ other ∈ replies, Alone session text (other.texts host) := by
    intro other member next sent
    exact apart next (List.mem_flatMap.mpr ⟨other, member, sent⟩) text
      (List.mem_flatMap.mpr ⟨reply, here, emitted⟩)
  have later : ∀ other ∈ after, other ∈ replies := fun other member => by simp [split, member]
  have stored := Reply.run_others named after (fun other member => ended other (later other member))
    (fun other member => one other (later other member))
    (fun other member => alone other (later other member)) last
    (reply.remember host session (runFrom (Reply.remember host session) store before))
  rw [Reply.remember_emitted named (ended reply here) (one reply here) (alone reply here)
    emitted] at stored
  unfold ReasoningStore.get
  rw [split, runFrom_append, runFrom_cons, stored, Option.map_some, cleanTurn_cleanTurn]

def jsonText (text : String) : PyJson := .str (lit text)

def reasoningDone (oi : Nat) (encrypted : String) : SseEvent where
  name := none
  type := some (lit "response.output_item.done")
  data := some [(lit "output_index", .int oi),
    (lit "item", .dict [(lit "type", jsonText "reasoning"),
      (lit "encrypted_content", jsonText encrypted)])]

/-- A message of a text part and, where one is given, a refusal part. -/
def messageDone (oi : Nat) (text : String) (refusal : Option String) : SseEvent where
  name := none
  type := some (lit "response.output_item.done")
  data := some [(lit "output_index", .int oi),
    (lit "item", .dict [(lit "type", jsonText "message"),
      (lit "phase", jsonText "final_answer"),
      (lit "content", .list (
        .dict [(lit "type", jsonText "output_text"), (lit "text", jsonText text)] ::
        (refusal.map fun refusal =>
          .dict [(lit "type", jsonText "refusal"), (lit "refusal", jsonText refusal)]).toList))])]

def replyOf (events : List SseEvent) : Reply := ⟨[], [], true, events ++ [completedEvent]⟩

/-- The first reply keys reasoning to a text, and the second one sends the text as a refusal. -/
def inheriting : List Reply :=
  [replyOf [reasoningDone 0 "e", messageDone 1 "no" none],
    replyOf [messageDone 0 "well" (some "no")]]

theorem texts_inherited : ¬TextsRemembered pythonHost (lit "s") [] inheriting := by
  intro remembered
  have row := remembered inheriting.dropLast _ [] (lit "no") rfl (by decide +kernel)
    (by simp)
  have items := congrArg (Option.map fun turn => turn.items.length) row
  revert items
  decide +kernel

/-- The second reply sends the text as its message's one block. -/
def replacing : List Reply :=
  [replyOf [reasoningDone 0 "e", messageDone 1 "no" none], replyOf [messageDone 0 "no" none]]

theorem texts_remembered_replaced : TextsRemembered pythonHost (lit "s") [] replacing :=
  texts_remembered pythonHost (lit "s") (by decide) [] replacing (by decide +kernel)
    (by decide +kernel) (by decide +kernel)

end Ccrc.CodexBridge
