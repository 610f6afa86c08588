import Ccrc.Pwa.ChatItems

/-! What the chat's items are of the events: each item by its own event and the events after
it. -/

set_option autoImplicit false

namespace Ccrc.Pwa

open Library Shared Transcript
open Library.Text (lit unit)

/-! ## Events by kind -/

def toolUseId : ChatEvent → Option Text
  | .toolUse _ _ toolId _ _ _ => some toolId
  | _ => none

def resultId : ChatEvent → Option Text
  | .toolResult _ toolId _ _ _ => some toolId
  | _ => none

/-- A turn is what a user, the assistant or the system says. -/
def isTurn : ChatEvent → Bool
  | .user _ _ _ _ => true
  | .assistant _ _ _ _ => true
  | .toolUse _ _ _ _ _ _ => false
  | .toolResult _ _ _ _ _ => false
  | .system _ _ _ _ _ => true

def toolIds (events : List ChatEvent) : List Text := events.filterMap toolUseId

def resultsOf (toolId : Text) (events : List ChatEvent) : List ChatEvent :=
  events.filter fun e => resultId e == some toolId

def toolKey : ChatItem → Option Text
  | .tool key _ _ => some key
  | _ => none

/-- A tool item with what the later events say of its result. -/
def complete (events : List ChatEvent) : ChatItem → ChatItem
  | .tool key use attached => .tool key use ((resultsOf key events).getLast?.or attached)
  | item => item

section Shown

variable (getTime : Text → Option Int) (dividerLabel : Text → Option Text)

def nextTs (lastTs : Option Int) : ChatEvent → Option Int
  | .toolResult _ _ _ _ _ => lastTs
  | e => newestTs getTime lastTs e

/-- The items of one event. -/
def itemsOf (lastTs : Option Int) (e : ChatEvent) (after' : List ChatEvent) : List ChatItem :=
  match e with
  | .toolResult ts toolId text isError truncatedBytes =>
      fetchedMail toolId text isError truncatedBytes
        (.toolResult ts toolId text isError truncatedBytes)
  | e => dividerOf getTime dividerLabel lastTs e ++ [complete after' (itemOf e)]

/-- The items of the events, each with its result at once. -/
def shown (lastTs : Option Int) : List ChatEvent → List ChatItem
  | [] => []
  | e :: rest =>
      itemsOf getTime dividerLabel lastTs e rest ++ shown (nextTs getTime lastTs e) rest

end Shown

/-! ## The build as a whole -/

def withResult (toolId : Text) (result : ChatEvent) : ChatItem → ChatItem
  | .tool key use attached => .tool key use (if key = toolId then some result else attached)
  | item => item

theorem withResult_other {toolId : Text} {result : ChatEvent} {item : ChatItem}
    (other : toolKey item ≠ some toolId) : withResult toolId result item = item := by
  cases item with
  | tool key use attached =>
      have apart : key ≠ toolId := fun same => other (congrArg some same)
      rw [withResult, if_neg apart]
  | _ => rfl

theorem map_withResult_other {toolId : Text} {result : ChatEvent} {items : List ChatItem}
    (none' : toolId ∉ items.filterMap toolKey) :
    items.map (withResult toolId result) = items := by
  refine (List.map_congr_left fun item member => ?_).trans (List.map_id items)
  exact withResult_other fun isKey => none' (List.mem_filterMap.mpr ⟨item, member, isKey⟩)

theorem any_isToolOf {toolId : Text} {items : List ChatItem} :
    items.any (isToolOf toolId) = decide (toolId ∈ items.filterMap toolKey) := by
  rw [Bool.eq_iff_iff, List.any_eq_true, decide_eq_true_eq, List.mem_filterMap]
  refine exists_congr fun item => and_congr_right fun _ => ?_
  cases item <;> simp [toolKey, isToolOf]

/-- Where the ids of the tool items are distinct, a result goes to the one of its id. -/
theorem attachResult_eq {toolId : Text} {result : ChatEvent} {items : List ChatItem}
    (distinct : (items.filterMap toolKey).Nodup) :
    attachResult toolId result items = items.map (withResult toolId result) := by
  induction items with
  | nil => rfl
  | cons item rest ih =>
      have rest' : (rest.filterMap toolKey).Nodup :=
        distinct.sublist ((List.sublist_cons_self item rest).filterMap toolKey)
      rw [List.map_cons]
      unfold attachResult
      rw [any_isToolOf]
      by_cases later : toolId ∈ rest.filterMap toolKey
      · have other : toolKey item ≠ some toolId := by
          intro isKey
          rw [List.filterMap_cons, isKey, List.nodup_cons] at distinct
          exact distinct.1 later
        rw [decide_eq_true later, if_pos rfl, ih rest', withResult_other other]
      · rw [decide_eq_false later, if_neg Bool.false_ne_true, ih rest', map_withResult_other later]
        cases item with
        | tool key use attached =>
            by_cases same : key = toolId
            · simp only [if_pos same, withResult]
            · simp only [if_neg same, withResult]
        | _ => rfl

theorem toolKey_withResult (toolId : Text) (result : ChatEvent) (item : ChatItem) :
    toolKey (withResult toolId result item) = toolKey item := by
  cases item <;> rfl

theorem complete_nil (item : ChatItem) : complete [] item = item := by
  cases item <;> rfl

/-- A result that is attached to an item is the one before the later ones. -/
theorem complete_result {ts toolId text : Text} {isError : Bool} {truncatedBytes : Nat}
    (rest : List ChatEvent) (item : ChatItem) :
    complete (.toolResult ts toolId text isError truncatedBytes :: rest) item =
      complete rest (withResult toolId (.toolResult ts toolId text isError truncatedBytes) item) := by
  cases item with
  | tool key use attached =>
      by_cases same : key = toolId
      · have mine : resultsOf key (.toolResult ts toolId text isError truncatedBytes :: rest) =
            .toolResult ts toolId text isError truncatedBytes :: resultsOf key rest := by
          rw [resultsOf, List.filter_cons_of_pos (by simp [resultId, same])]
          rfl
        rw [complete, mine, List.getLast?_cons, withResult, if_pos same, complete]
        cases (resultsOf key rest).getLast? <;> rfl
      · have other : resultsOf key (.toolResult ts toolId text isError truncatedBytes :: rest) =
            resultsOf key rest := by
          rw [resultsOf, List.filter_cons_of_neg (by simpa [resultId] using Ne.symm same)]
          rfl
        rw [complete, other, withResult, if_neg same, complete]
  | _ => rfl

theorem complete_other {e : ChatEvent} (isNone : resultId e = none) (rest : List ChatEvent) :
    complete (e :: rest) = complete rest := by
  funext item
  cases item with
  | tool key use attached =>
      have other : resultsOf key (e :: rest) = resultsOf key rest := by
        rw [resultsOf, List.filter_cons_of_neg (by simp [isNone])]
        rfl
      rw [complete, complete, other]
  | _ => rfl

theorem toolKey_itemOf (e : ChatEvent) : toolKey (itemOf e) = toolUseId e := by
  cases e with
  | toolUse uuid ts toolId name input truncatedBytes => rfl
  | toolResult ts toolId text isError truncatedBytes => rfl
  | assistant uuid ts text compaction => rfl
  | user uuid ts text compaction =>
      unfold itemOf
      dsimp only
      split <;> rfl
  | system uuid ts text origin resetsAt =>
      unfold itemOf
      dsimp only
      split <;> rfl

theorem toolIds_cons (e : ChatEvent) (rest : List ChatEvent) :
    toolIds (e :: rest) = [itemOf e].filterMap toolKey ++ toolIds rest := by
  cases isUse : toolUseId e <;> simp [toolIds, List.filterMap_cons, toolKey_itemOf, isUse]

theorem fetchedMail_noTool {toolId text : Text} {isError : Bool} {truncatedBytes : Nat}
    {e : ChatEvent} :
    (fetchedMail toolId text isError truncatedBytes e).filterMap toolKey = [] := by
  unfold fetchedMail
  split
  next =>
      split
      next => rfl
      next => rfl
  next => rfl

section Build

variable {getTime : Text → Option Int} {dividerLabel : Text → Option Text}

theorem dividerOf_noTool {lastTs : Option Int} {e : ChatEvent} :
    (dividerOf getTime dividerLabel lastTs e).filterMap toolKey = [] := by
  unfold dividerOf
  split
  next => rfl
  next =>
      split
      next =>
          split
          next => rfl
          next => rfl
      next => rfl

theorem map_complete_noTool {items : List ChatItem} {events : List ChatEvent}
    (noTool : items.filterMap toolKey = []) : items.map (complete events) = items := by
  refine (List.map_congr_left fun item member => ?_).trans (List.map_id items)
  have none' := List.filterMap_eq_nil_iff.mp noTool item member
  cases item with
  | tool key use attached => cases none'
  | _ => rfl

/-- An event that is no result adds its items at the end. -/
theorem addEvent_other {build : ChatBuild} {e : ChatEvent} (isNone : resultId e = none)
    (rest : List ChatEvent) :
    addEvent getTime dividerLabel build e =
        ⟨build.items ++ dividerOf getTime dividerLabel build.lastTs e ++ [itemOf e],
          newestTs getTime build.lastTs e⟩ ∧
      nextTs getTime build.lastTs e = newestTs getTime build.lastTs e ∧
      itemsOf getTime dividerLabel build.lastTs e rest =
        dividerOf getTime dividerLabel build.lastTs e ++ [complete rest (itemOf e)] := by
  cases e with
  | toolResult ts toolId text isError truncatedBytes => cases isNone
  | _ => exact ⟨rfl, rfl, rfl⟩

theorem build_items (events : List ChatEvent) (build : ChatBuild)
    (distinct : (build.items.filterMap toolKey ++ toolIds events).Nodup) :
    (events.foldl (addEvent getTime dividerLabel) build).items =
      build.items.map (complete events) ++ shown getTime dividerLabel build.lastTs events := by
  induction events generalizing build with
  | nil =>
      rw [List.foldl_nil, shown, List.append_nil, List.map_congr_left fun item _ => complete_nil item,
        List.map_id']
  | cons e rest ih =>
      rw [List.foldl_cons]
      cases isResult : resultId e with
      | none =>
          obtain ⟨added, next, items⟩ := @addEvent_other getTime dividerLabel build e isResult rest
          rw [added, ih _ ?_, shown, items, next, complete_other isResult]
          · simp only [List.map_append, List.map_cons, List.map_nil, List.append_assoc,
              map_complete_noTool dividerOf_noTool]
          · simp only [List.filterMap_append, dividerOf_noTool, List.append_assoc, List.nil_append]
            rwa [toolIds_cons] at distinct
      | some id =>
          cases e with
          | toolResult ts toolId text isError truncatedBytes =>
              have own : (build.items.filterMap toolKey).Nodup :=
                List.Nodup.of_append_left distinct
              have attached := @attachResult_eq toolId
                (.toolResult ts toolId text isError truncatedBytes) build.items own
              have keys : (build.items.map (withResult toolId
                  (.toolResult ts toolId text isError truncatedBytes))).filterMap toolKey =
                  build.items.filterMap toolKey := by
                rw [List.filterMap_map]
                exact congrArg (List.filterMap · build.items)
                  (funext (toolKey_withResult toolId _))
              rw [addEvent, attached, ih _ ?_, shown]
              · simp only [List.map_append, List.map_map, List.append_assoc,
                  map_complete_noTool fetchedMail_noTool]
                congr 1
                exact List.map_congr_left fun item _ => (complete_result rest item).symm
              · rw [List.filterMap_append, keys, fetchedMail_noTool, List.append_nil]
                exact distinct
          | _ => cases isResult

end Build

/-! ## What an item shows -/

/-- The event that an item shows; a divider, a fetched mail, a send and the pulse show none. -/
def shownEvent : ChatItem → Option ChatEvent
  | .message _ e _ => some e
  | .tool _ use _ => some use
  | .task _ _ e => some e
  | .mail _ _ e => if (resultId e).isNone then some e else none
  | _ => none

/-- An item is what its event says. -/
def Fits : ChatItem → Prop
  | .divider _ _ => True
  | .message key e _ => isTurn e = true ∧ key = uuidOf e
  | .tool key use _ => toolUseId use = some key
  | .mail key envelope (.user uuid _ text _) => key = uuid ∧ parseMailEnvelope text = .ok envelope
  | .mail key envelope (.toolResult _ toolId text isError truncatedBytes) =>
      key = lit "mail-" ++ toolId ∧ isError = false ∧ truncatedBytes = 0 ∧
        parseFetchedMailEnvelope text = .ok envelope
  | .mail _ _ _ => False
  | .task key notification (.system uuid _ text _ _) =>
      key = uuid ∧ parseTaskNotification text = some notification
  | .task _ _ _ => False
  | .pending key send => key = lit "pending-" ++ send.key
  | .working => True

section Items

variable {getTime : Text → Option Int} {dividerLabel : Text → Option Text}

theorem itemOf_shown {e : ChatEvent} (isNone : resultId e = none) :
    shownEvent (itemOf e) = some e ∧ Fits (itemOf e) := by
  cases e with
  | toolResult ts toolId text isError truncatedBytes => cases isNone
  | toolUse uuid ts toolId name input truncatedBytes => exact ⟨rfl, rfl⟩
  | assistant uuid ts text compaction => exact ⟨rfl, rfl, rfl⟩
  | user uuid ts text compaction =>
      unfold itemOf
      dsimp only
      split
      next found => exact ⟨rfl, rfl, found⟩
      next => exact ⟨rfl, rfl, rfl⟩
  | system uuid ts text origin resetsAt =>
      unfold itemOf
      dsimp only
      split
      next found => exact ⟨rfl, rfl, found⟩
      next => exact ⟨rfl, rfl, rfl⟩

theorem complete_shown (events : List ChatEvent) (item : ChatItem) :
    shownEvent (complete events item) = shownEvent item ∧ (Fits item → Fits (complete events item)) ∧
      (complete events item).key = item.key := by
  cases item <;> exact ⟨rfl, id, rfl⟩

theorem dividerOf_shown (lastTs : Option Int) (e : ChatEvent) :
    ∀ item ∈ dividerOf getTime dividerLabel lastTs e,
      ∃ label, item = .divider (lit "div-" ++ uuidOf e) label := by
  intro item member
  unfold dividerOf at member
  split at member
  next => cases member
  next =>
      split at member
      next =>
          split at member
          next => exact ⟨_, List.mem_singleton.mp member⟩
          next => cases member
      next => cases member

theorem fetchedMail_shown {ts toolId text : Text} {isError : Bool} {truncatedBytes : Nat} :
    ∀ item ∈ fetchedMail toolId text isError truncatedBytes
        (.toolResult ts toolId text isError truncatedBytes),
      shownEvent item = none ∧ Fits item := by
  intro item member
  unfold fetchedMail at member
  split at member
  next whole =>
      rw [Bool.and_eq_true, Bool.not_eq_true', beq_iff_eq] at whole
      split at member
      next found =>
          rw [List.mem_singleton.mp member]
          exact ⟨rfl, rfl, whole.1, whole.2, found⟩
      next => cases member
  next => cases member

theorem filterMap_none {items : List ChatItem} (none' : ∀ item ∈ items, shownEvent item = none) :
    items.filterMap shownEvent = [] := List.filterMap_eq_nil_iff.mpr none'

/-- Every event but a result has one item, in the order of the events. -/
theorem shown_turns (events : List ChatEvent) (lastTs : Option Int) :
    (shown getTime dividerLabel lastTs events).filterMap shownEvent =
      events.filter fun e => (resultId e).isNone := by
  induction events generalizing lastTs with
  | nil => rfl
  | cons e rest ih =>
      rw [shown, List.filterMap_append, ih]
      cases isResult : resultId e with
      | none =>
          have items := (@addEvent_other getTime dividerLabel ⟨[], lastTs⟩ e isResult rest).2.2
          have divider : (dividerOf getTime dividerLabel lastTs e).filterMap shownEvent = [] := by
            refine filterMap_none fun item member => ?_
            obtain ⟨label, rfl⟩ := dividerOf_shown lastTs e item member
            rfl
          have own : shownEvent (complete rest (itemOf e)) = some e :=
            (complete_shown rest _).1.trans (itemOf_shown isResult).1
          rw [items, List.filterMap_append, divider, List.filter_cons_of_pos (by simp [isResult])]
          simp [own]
      | some id =>
          cases e with
          | toolResult ts toolId text isError truncatedBytes =>
              rw [List.filter_cons_of_neg (by simp [resultId]), itemsOf,
                filterMap_none fun item member => (fetchedMail_shown item member).1, List.nil_append]
          | _ => cases isResult

/-- The items of one event, by the event: a divider, the item of the event, or its mail. -/
theorem mem_itemsOf {lastTs : Option Int} {e : ChatEvent} {rest : List ChatEvent} {item : ChatItem}
    (member : item ∈ itemsOf getTime dividerLabel lastTs e rest) :
    Fits item ∧ (∀ key use result, item = .tool key use result →
      use = e ∧ result = (resultsOf key rest).getLast?) := by
  cases isResult : resultId e with
  | none =>
      rw [(@addEvent_other getTime dividerLabel ⟨[], lastTs⟩ e isResult rest).2.2,
        List.mem_append, List.mem_singleton] at member
      rcases member with divider | rfl
      · obtain ⟨label, rfl⟩ := dividerOf_shown lastTs e item divider
        exact ⟨trivial, fun _ _ _ bad => by cases bad⟩
      · refine ⟨(complete_shown rest _).2.1 (itemOf_shown isResult).2, fun key use result isTool => ?_⟩
        have own := (complete_shown rest (itemOf e)).1.trans (itemOf_shown isResult).1
        have fits := (complete_shown rest (itemOf e)).2.1 (itemOf_shown isResult).2
        rw [isTool] at own fits
        cases own
        cases e with
        | toolUse uuid ts toolId name input truncatedBytes =>
            cases isTool
            exact ⟨rfl, Option.or_none⟩
        | _ => cases fits
  | some id =>
      cases e with
      | toolResult ts toolId text isError truncatedBytes =>
          obtain ⟨isNone, fits⟩ := fetchedMail_shown item member
          refine ⟨fits, fun key use result isTool => ?_⟩
          rw [isTool] at isNone
          cases isNone
      | _ => cases isResult

theorem shown_fits (events : List ChatEvent) (lastTs : Option Int) :
    ∀ item ∈ shown getTime dividerLabel lastTs events, Fits item := by
  induction events generalizing lastTs with
  | nil =>
      intro item bad
      cases bad
  | cons e rest ih =>
      intro item member
      rcases List.mem_append.mp member with own | later
      · exact (mem_itemsOf own).1
      · exact ih _ item later

/-- A tool item has the last result of its id among the events after its own. -/
theorem shown_results (events : List ChatEvent) (lastTs : Option Int) {key : Text} {use : ChatEvent}
    {result : Option ChatEvent}
    (member : .tool key use result ∈ shown getTime dividerLabel lastTs events) :
    ∃ before after', events = before ++ use :: after' ∧ result = (resultsOf key after').getLast? := by
  induction events generalizing lastTs with
  | nil => cases member
  | cons e rest ih =>
      rcases List.mem_append.mp member with own | later
      · obtain ⟨rfl, found⟩ := (mem_itemsOf own).2 key use result rfl
        exact ⟨[], rest, rfl, found⟩
      · obtain ⟨before, after', whole, found⟩ := ih _ later
        exact ⟨e :: before, after', congrArg (e :: ·) whole, found⟩

/-! ## The caret -/

/-- Nothing changed but the caret of a last item of the assistant. -/
def CaretOnly (plain marked : List ChatItem) : Prop :=
  marked = plain ∨ ∃ front key uuid ts text compaction streaming,
    plain = front ++ [.message key (.assistant uuid ts text compaction) streaming] ∧
      marked = front ++ [.message key (.assistant uuid ts text compaction) true]

theorem markStreaming_caret (items : List ChatItem) : CaretOnly items (markStreaming items) := by
  induction items with
  | nil => exact .inl rfl
  | cons item rest ih =>
      cases rest with
      | nil =>
          cases item with
          | message key event streaming =>
              cases event with
              | assistant uuid ts text compaction =>
                  exact .inr ⟨[], key, uuid, ts, text, compaction, streaming, rfl, rfl⟩
              | _ => exact .inl rfl
          | _ => exact .inl rfl
      | cons next rest =>
          have step : markStreaming (item :: next :: rest) = item :: markStreaming (next :: rest) := by
            rw [markStreaming]
            simp
          rw [step]
          rcases ih with same | ⟨front, key, uuid, ts, text, compaction, streaming, plain, marked⟩
          · exact .inl (congrArg (item :: ·) same)
          · exact .inr ⟨item :: front, key, uuid, ts, text, compaction, streaming,
              congrArg (item :: ·) plain, congrArg (item :: ·) marked⟩

theorem CaretOnly.same {plain marked : List ChatItem} (caret : CaretOnly plain marked) :
    marked.map (·.key) = plain.map (·.key) ∧
      marked.filterMap shownEvent = plain.filterMap shownEvent ∧
      ((∀ item ∈ plain, Fits item) → ∀ item ∈ marked, Fits item) ∧
      ∀ key use result, .tool key use result ∈ marked → .tool key use result ∈ plain := by
  rcases caret with rfl | ⟨front, key, uuid, ts, text, compaction, streaming, rfl, rfl⟩
  · exact ⟨rfl, rfl, id, fun _ _ _ => id⟩
  · refine ⟨by simp [ChatItem.key], by simp [shownEvent], fun fits item member => ?_,
      fun key' use result member => ?_⟩
    · rcases List.mem_append.mp member with inside | last
      · exact fits item (List.mem_append_left _ inside)
      · rw [List.mem_singleton.mp last]
        have plain := fits (.message key (.assistant uuid ts text compaction) streaming)
          (List.mem_append_right _ List.mem_cons_self)
        exact plain
    · rcases List.mem_append.mp member with inside | last
      · exact List.mem_append_left _ inside
      · cases List.mem_singleton.mp last

end Items

end Ccrc.Pwa
