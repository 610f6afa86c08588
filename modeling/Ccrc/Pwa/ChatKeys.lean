import Ccrc.Pwa.ChatItemsProperties

/-! The keys of the chat's items. A list of items may repeat no key: a record that speaks twice
gives two items of one key. -/

set_option autoImplicit false

namespace Ccrc.Pwa

open Library Shared Transcript
open Library.Text (lit unit)

/-! ## Records -/

def isHexUnit (c : UInt16) : Bool :=
  Text.isDigit c || (unit 'a' ≤ c && c ≤ unit 'f') || (unit 'A' ≤ c && c ≤ unit 'F')

/-- A text by its form, in which `x` stands for a hexadecimal digit. -/
def isUuidForm : Text → Text → Bool
  | [], [] => true
  | form :: forms, c :: rest =>
      (if form = unit 'x' then isHexUnit c else decide (c = form)) && isUuidForm forms rest
  | _, _ => false

def isUuid : Text → Bool := isUuidForm (lit "xxxxxxxx-xxxx-xxxx-xxxx-xxxxxxxxxxxx")

/-- The record of a line that a transcript's reader looks at. -/
def recordOf (line : Text) : Option (Json Number) :=
  match Json.parse line with
  | some (.object fields) => some (.object fields)
  | some (.array items) => some (.array items)
  | _ => none

def recordUuid (record : Json Number) : Text := (ownText record "uuid").getD []

def recordTs (record : Json Number) : Text := (ownText record "timestamp").getD []

def userText (block : Json Number) : Option Text :=
  if isText (own block "type") (lit "tool_result") then none else blockText block

def userBlocks : Option (Json Number) → List (Json Number)
  | some (.array blocks) => blocks
  | _ => []

/-- What a user's record says in blocks of text, each a turn of its own. -/
def userTexts (record : Json Number) : List Text :=
  let isMeta := isTrue (own record "isMeta")
  let content := (own record "message").bind fun m => own m "content"
  if isTrue (own record "isSidechain") ∨ !isText (own record "type") (lit "user") then []
  else if isMeta ∧ (flattenContent content).trim.startsWith resumePromptPrefix then []
  else if !isMeta ∧ (flattenContent content).trim = idleCompactNudgePrompt then []
  else (userBlocks content).filterMap userText

section Records

variable {serialize : Json Number → Text} {record : Json Number} {line : Text}

theorem parse_recordOf : parseTranscriptLine serialize line = match recordOf line with
    | none => []
    | some record => (eventsOfRecord serialize record).map
        (flagCompaction (isTrue (own record "isCompactSummary"))) := by
  unfold parseTranscriptLine recordOf
  cases Json.parse line with
  | none => rfl
  | some value => cases value <;> rfl

/-- The events of a record are under its uuid and time, and so many of its turns are blocks of
text; where none is, it has one turn at most. -/
structure Speaks (uuid ts : Text) (texts : Nat) (events : List ChatEvent) : Prop where
  own : ∀ e ∈ events, resultId e = none → uuidOf e = uuid ∧ tsOf e = ts
  once : (events.filter isTurn).length ≤ 1 ↔ texts ≤ 1

variable {uuid ts : Text} {e : ChatEvent}

theorem speaks_nil : Speaks uuid ts 0 [] where
  own := fun e bad => by cases bad
  once := by simp

theorem speaks_one (own : uuidOf e = uuid ∧ tsOf e = ts) : Speaks uuid ts 0 [e] where
  own := fun e' member _ => by
    rw [List.mem_singleton.mp member]
    exact own
  once := by
    have short := List.length_filter_le isTurn [e]
    simpa using short

theorem speaks_userContent {isMeta : Bool} {text : Text} :
    Speaks uuid ts 0 (userContent uuid ts isMeta text) := by
  unfold userContent
  split
  next => exact speaks_nil
  next =>
      split
      next => exact speaks_one ⟨rfl, rfl⟩
      next =>
          split
          next => exact speaks_one ⟨rfl, rfl⟩
          next =>
              split
              next => exact speaks_nil
              next =>
                  split
                  next => exact speaks_one ⟨rfl, rfl⟩
                  next => exact speaks_one ⟨rfl, rfl⟩

/-- A block of a user's record is a result, a turn of text or nothing. -/
theorem userBlock_cases (isMeta : Bool) (block : Json Number) :
    (userText block = none ∧ ∀ e ∈ userBlock uuid ts isMeta block, resultId e ≠ none) ∨
      ∃ text e, userText block = some text ∧ userBlock uuid ts isMeta block = [e] ∧
        isTurn e = true ∧ uuidOf e = uuid ∧ tsOf e = ts := by
  unfold userBlock userText
  split
  next =>
      refine .inl ⟨rfl, fun e member => ?_⟩
      rw [List.mem_singleton.mp member]
      intro bad
      cases bad
  next =>
      cases blockText block with
      | none => exact .inl ⟨rfl, fun e bad => by cases bad⟩
      | some text => cases isMeta <;> exact .inr ⟨text, _, rfl, rfl, rfl, rfl, rfl⟩

theorem isTurn_result (isResult : resultId e ≠ none) : isTurn e = false := by
  cases e <;> first | rfl | exact absurd rfl isResult

theorem speaks_userBlocks (isMeta : Bool) (blocks : List (Json Number)) :
    Speaks uuid ts (blocks.filterMap userText).length
      (blocks.flatMap (userBlock uuid ts isMeta)) := by
  have whole : (∀ e ∈ blocks.flatMap (userBlock uuid ts isMeta), resultId e = none →
      uuidOf e = uuid ∧ tsOf e = ts) ∧
      ((blocks.flatMap (userBlock uuid ts isMeta)).filter isTurn).length =
        (blocks.filterMap userText).length := by
    induction blocks with
    | nil => exact ⟨fun e bad => (by cases bad), rfl⟩
    | cons block rest ih =>
        rw [List.flatMap_cons, List.filter_append, List.length_append, ih.2]
        rcases @userBlock_cases uuid ts isMeta block with ⟨noText, results⟩ | ⟨text, e, isText', one, turn, own⟩
        · have silent : (userBlock uuid ts isMeta block).filter isTurn = [] :=
            List.filter_eq_nil_iff.mpr fun e member => by
              simp [isTurn_result (results e member)]
          rw [silent, List.filterMap_cons_none noText]
          refine ⟨fun e member isNone => ?_, by simp⟩
          rcases List.mem_append.mp member with here | later
          · exact absurd isNone (results e here)
          · exact ih.1 e later isNone
        · rw [one, List.filterMap_cons_some isText', List.filter_cons_of_pos turn]
          refine ⟨fun e' member isNone => ?_, by simp [Nat.add_comm]⟩
          rcases List.mem_append.mp member with here | later
          · rw [List.mem_singleton.mp here]
            exact own
          · exact ih.1 e' later isNone
  exact ⟨whole.1, by rw [whole.2]⟩

theorem speaks_userEvents {isMeta : Bool} {content : Option (Json Number)} :
    Speaks uuid ts
      (if isMeta ∧ (flattenContent content).trim.startsWith resumePromptPrefix then []
        else if !isMeta ∧ (flattenContent content).trim = idleCompactNudgePrompt then []
        else (userBlocks content).filterMap userText).length
      (userEvents uuid ts isMeta content) := by
  unfold userEvents
  split
  next => exact speaks_one ⟨rfl, rfl⟩
  next =>
      split
      next => exact speaks_one ⟨rfl, rfl⟩
      next =>
          cases content with
          | none => exact speaks_nil
          | some value =>
              cases value with
              | string text => exact speaks_userContent
              | array blocks => exact speaks_userBlocks isMeta blocks
              | _ => exact speaks_nil

theorem toolUseOf_own {block : Json Number} :
    ∀ e ∈ toolUseOf serialize uuid ts block, isTurn e = false ∧ uuidOf e = uuid ∧ tsOf e = ts := by
  intro e member
  unfold toolUseOf at member
  split at member
  next =>
      rw [List.mem_singleton.mp member]
      exact ⟨rfl, rfl, rfl⟩
  next => cases member

/-- The assistant's texts are one turn in front of the tool calls. -/
theorem speaks_assistantBlocks {blocks : List (Json Number)} {texts : List Text} :
    Speaks uuid ts 0 (if texts = [] then blocks.flatMap (toolUseOf serialize uuid ts)
      else .assistant uuid ts (Text.join [lineFeed] texts) false ::
        blocks.flatMap (toolUseOf serialize uuid ts)) := by
  have tools : ∀ e ∈ blocks.flatMap (toolUseOf serialize uuid ts),
      isTurn e = false ∧ uuidOf e = uuid ∧ tsOf e = ts := by
    intro e member
    obtain ⟨block, -, among⟩ := List.mem_flatMap.mp member
    exact toolUseOf_own e among
  have silent : (blocks.flatMap (toolUseOf serialize uuid ts)).filter isTurn = [] :=
    List.filter_eq_nil_iff.mpr fun e member => by simp [(tools e member).1]
  split
  next => exact ⟨fun e member _ => (tools e member).2, by simp [silent]⟩
  next =>
      refine ⟨List.forall_mem_cons.mpr ⟨fun _ => ⟨rfl, rfl⟩, fun e member _ => (tools e member).2⟩, ?_⟩
      rw [List.filter_cons_of_pos rfl, silent]
      simp

theorem speaks_assistantEvents {env : Json Number} {content : Option (Json Number)} :
    Speaks uuid ts 0 (assistantEvents serialize uuid ts env content) := by
  unfold assistantEvents
  split
  next => exact speaks_one ⟨rfl, rfl⟩
  next =>
      split
      next => exact speaks_one ⟨rfl, rfl⟩
      next =>
          split
          next => exact speaks_assistantBlocks
          next =>
              split
              next => exact speaks_nil
              next => exact speaks_one ⟨rfl, rfl⟩
          next => exact speaks_nil

theorem speaks_eventsOfRecord : Speaks (recordUuid record) (recordTs record)
    (userTexts record).length (eventsOfRecord serialize record) := by
  have apart : ∀ {type other : Text}, isText (own record "type") type = true → type ≠ other →
      isText (own record "type") other = false := by
    intro type other isType differ
    rw [isText, beq_iff_eq] at isType
    rw [isText, isType]
    simpa using differ
  have silent : isText (own record "type") (lit "user") = false → userTexts record = [] := by
    intro other
    simp [userTexts, other]
  unfold eventsOfRecord
  dsimp only
  split
  next side =>
      have none' : userTexts record = [] := by simp [userTexts, side]
      rw [none']
      exact speaks_nil
  next main =>
      split
      next isType =>
          rw [silent (apart isType (by decide))]
          split
          next => exact speaks_nil
          next => exact speaks_one ⟨rfl, rfl⟩
      next =>
          split
          next isType =>
              rw [silent (apart isType (by decide))]
              split
              next => exact speaks_one ⟨rfl, rfl⟩
              next => exact speaks_nil
          next =>
              split
              next isUser =>
                  have spoken : ¬(isTrue (own record "isSidechain") = true ∨
                      (!isText (own record "type") (lit "user")) = true) := by
                    simp [main, isUser]
                  unfold userTexts
                  dsimp only
                  rw [if_neg spoken]
                  exact speaks_userEvents
              next notUser =>
                  rw [silent (by simpa using notUser)]
                  split
                  next => exact speaks_assistantEvents
                  next => exact speaks_nil

theorem flagCompaction_same (flag : Bool) (e : ChatEvent) :
    uuidOf (flagCompaction flag e) = uuidOf e ∧ tsOf (flagCompaction flag e) = tsOf e ∧
      isTurn (flagCompaction flag e) = isTurn e ∧ resultId (flagCompaction flag e) = resultId e := by
  cases e <;> exact ⟨rfl, rfl, rfl, rfl⟩

theorem speaks_parse (found : recordOf line = some record) :
    Speaks (recordUuid record) (recordTs record) (userTexts record).length
      (parseTranscriptLine serialize line) := by
  obtain ⟨owned, once⟩ := @speaks_eventsOfRecord serialize record
  have same := flagCompaction_same (isTrue (own record "isCompactSummary"))
  rw [parse_recordOf, found]
  constructor
  · intro e member isNone
    obtain ⟨e, among, rfl⟩ := List.mem_map.mp member
    obtain ⟨uuid, ts, -, result⟩ := same e
    rw [uuid, ts]
    exact owned e among (result.symm.trans isNone)
  · have turns : isTurn ∘ flagCompaction (isTrue (own record "isCompactSummary")) = isTurn :=
      funext fun e => (same e).2.2.1
    rw [List.filter_map, List.length_map, turns]
    exact once

end Records

/-! ## Transcripts -/

/-- A transcript whose records are under distinct ids, and whose tool calls are too. -/
structure ChatTranscript (serialize : Json Number → Text) where
  lines : List Text
  uuids : ∀ line ∈ lines, ∀ record, recordOf line = some record → isUuid (recordUuid record) = true
  distinct : (lines.filterMap fun line => (recordOf line).map recordUuid).Nodup
  tools : (toolIds (lines.flatMap (parseTranscriptLine serialize))).Nodup
  shaped : ∀ toolId ∈ toolIds (lines.flatMap (parseTranscriptLine serialize)),
    isUuid toolId = false
  answered : ∀ toolId ∈ toolIds (lines.flatMap (parseTranscriptLine serialize)),
    (resultsOf toolId (lines.flatMap (parseTranscriptLine serialize))).length ≤ 1

namespace ChatTranscript

variable {serialize : Json Number → Text} (transcript : ChatTranscript serialize)

def events : List ChatEvent := transcript.lines.flatMap (parseTranscriptLine serialize)

theorem event_record {e : ChatEvent} (member : e ∈ transcript.events) :
    ∃ line ∈ transcript.lines, ∃ record, recordOf line = some record ∧
      (resultId e = none → uuidOf e = recordUuid record ∧ tsOf e = recordTs record) := by
  obtain ⟨line, isLine, among⟩ := List.mem_flatMap.mp member
  cases found : recordOf line with
  | none =>
      rw [parse_recordOf, found] at among
      cases among
  | some record => exact ⟨line, isLine, record, found, (speaks_parse found).own e among⟩

/-- Lines under one id are one line. -/
theorem line_unique {first second : Text} (isFirst : first ∈ transcript.lines)
    (isSecond : second ∈ transcript.lines) {record other : Json Number}
    (found : recordOf first = some record) (found' : recordOf second = some other)
    (same : recordUuid record = recordUuid other) : first = second := by
  have apart := List.pairwise_filterMap.mp transcript.distinct
  have symmetric : Std.Symm fun first second : Text =>
      ∀ uuid, (recordOf first).map recordUuid = some uuid →
        ∀ uuid', (recordOf second).map recordUuid = some uuid' → uuid ≠ uuid' :=
    ⟨fun _ _ held uuid isUuid uuid' isUuid' same => held uuid' isUuid' uuid isUuid same.symm⟩
  by_contra differ
  exact apart.forall isFirst isSecond differ _ (by rw [found]; rfl) _ (by rw [found']; rfl) same

theorem uuid_time {e other : ChatEvent} (member : e ∈ transcript.events)
    (member' : other ∈ transcript.events) (isNone : resultId e = none)
    (isNone' : resultId other = none) (same : uuidOf e = uuidOf other) : tsOf e = tsOf other := by
  obtain ⟨line, isLine, record, found, own⟩ := transcript.event_record member
  obtain ⟨line', isLine', record', found', own'⟩ := transcript.event_record member'
  rw [(own isNone).1, (own' isNone').1] at same
  obtain rfl := transcript.line_unique isLine isLine' found found' same
  rw [found] at found'
  cases found'
  rw [(own isNone).2, (own' isNone').2]

theorem event_uuid {e : ChatEvent} (member : e ∈ transcript.events) (isNone : resultId e = none) :
    isUuid (uuidOf e) = true := by
  obtain ⟨line, isLine, record, found, own⟩ := transcript.event_record member
  rw [(own isNone).1]
  exact transcript.uuids line isLine record found

end ChatTranscript

/-! ## Keys by kind -/

def turnKeys (events : List ChatEvent) : List Text := (events.filter isTurn).map uuidOf

def mailOf : ChatEvent → List ChatItem
  | .toolResult ts toolId text isError truncatedBytes =>
      fetchedMail toolId text isError truncatedBytes
        (.toolResult ts toolId text isError truncatedBytes)
  | _ => []

def mailKeys (events : List ChatEvent) : List Text :=
  events.flatMap fun e => (mailOf e).map (·.key)

def pendingKeys (pending : List PendingSend) : List Text :=
  pending.map fun p => lit "pending-" ++ p.key

def workingKeys (busy : Bool) : List Text := if busy then [lit "working"] else []

section Keys

variable (getTime : Text → Option Int) (dividerLabel : Text → Option Text)

def dividerKeys (lastTs : Option Int) : List ChatEvent → List Text
  | [] => []
  | e :: rest =>
      (if (resultId e).isNone then (dividerOf getTime dividerLabel lastTs e).map (·.key) else []) ++
        dividerKeys (nextTs getTime lastTs e) rest

variable {getTime dividerLabel}

/-- The key of a turn's item is its uuid. -/
theorem itemOf_key {e : ChatEvent} (turn : isTurn e = true) : (itemOf e).key = uuidOf e := by
  cases e with
  | toolResult ts toolId text isError truncatedBytes => cases turn
  | toolUse uuid ts toolId name input truncatedBytes => cases turn
  | assistant uuid ts text compaction => rfl
  | user uuid ts text compaction =>
      unfold itemOf
      dsimp only
      split <;> rfl
  | system uuid ts text origin resetsAt =>
      unfold itemOf
      dsimp only
      split <;> rfl

/-- What one event adds to the keys, by the kind of the key. -/
theorem itemsOf_keys (lastTs : Option Int) (e : ChatEvent) (rest : List ChatEvent) :
    (itemsOf getTime dividerLabel lastTs e rest).map (·.key) =
      (if (resultId e).isNone then (dividerOf getTime dividerLabel lastTs e).map (·.key) else []) ++
        (turnKeys [e] ++ (toolIds [e] ++ mailKeys [e])) := by
  have mail : mailKeys [e] = (mailOf e).map (·.key) := by
    rw [mailKeys, List.flatMap_cons, List.flatMap_nil, List.append_nil]
  cases turn : isTurn e with
  | true =>
      have isNone : resultId e = none := by
        by_contra isResult
        rw [isTurn_result isResult] at turn
        cases turn
      have turns : turnKeys [e] = [uuidOf e] := by
        rw [turnKeys, List.filter_cons_of_pos turn]
        rfl
      have tools : toolIds [e] ++ (mailOf e).map (·.key) = [] := by
        cases e <;> first | rfl | cases turn
      have items := (@addEvent_other getTime dividerLabel ⟨[], lastTs⟩ e isNone rest).2.2
      rw [items, List.map_append, List.map_singleton, (complete_shown rest _).2.2, itemOf_key turn,
        mail, turns, tools, isNone]
      rfl
  | false =>
      rw [mail]
      cases e with
      | toolUse uuid ts toolId name input truncatedBytes => exact List.map_append
      | toolResult ts toolId text isError truncatedBytes => rfl
      | _ => cases turn

/-- The keys of the items, by the kind of the key. -/
theorem shown_keys (events : List ChatEvent) (lastTs : Option Int) :
    ((shown getTime dividerLabel lastTs events).map (·.key)).Perm
      (dividerKeys getTime dividerLabel lastTs events ++
        (turnKeys events ++ (toolIds events ++ mailKeys events))) := by
  rw [List.perm_iff_count]
  intro key
  induction events generalizing lastTs with
  | nil => rfl
  | cons e rest ih =>
      have later := ih (nextTs getTime lastTs e)
      have turns : turnKeys (e :: rest) = turnKeys [e] ++ turnKeys rest := by
        rw [turnKeys, turnKeys, turnKeys, ← List.map_append, ← List.filter_append]
        rfl
      have tools : toolIds (e :: rest) = toolIds [e] ++ toolIds rest := by
        rw [toolIds, toolIds, toolIds, ← List.filterMap_append]
        rfl
      have mails : mailKeys (e :: rest) = mailKeys [e] ++ mailKeys rest := by
        rw [mailKeys, mailKeys, mailKeys, ← List.flatMap_append]
        rfl
      rw [shown, dividerKeys, List.map_append, itemsOf_keys, turns, tools, mails]
      simp only [List.count_append] at later ⊢
      omega

/-! ## Dividers -/

theorem dividerOf_time {lastTs : Option Int} {e : ChatEvent} {item : ChatItem}
    (member : item ∈ dividerOf getTime dividerLabel lastTs e) :
    item.key = lit "div-" ++ uuidOf e ∧
      ∃ t, getTime (tsOf e) = some t ∧ ∀ last ∈ lastTs, dividerGapMs ≤ t - last := by
  obtain ⟨label, rfl⟩ := dividerOf_shown lastTs e item member
  refine ⟨rfl, ?_⟩
  unfold dividerOf at member
  split at member
  next => cases member
  next t isTime =>
      refine ⟨t, isTime, fun last isLast => ?_⟩
      split at member
      next quiet => simpa [Option.mem_def.mp isLast] using quiet
      next => cases member

/-- The newest time does not go back. -/
theorem nextTs_le {last : Int} (e : ChatEvent) :
    ∃ next, nextTs getTime (some last) e = some next ∧ last ≤ next := by
  have newest : ∃ next, newestTs getTime (some last) e = some next ∧ last ≤ next := by
    unfold newestTs
    split
    next => exact ⟨last, rfl, Int.le_refl last⟩
    next t _ =>
        split
        next later =>
            simp only [Option.all_some, Bool.and_eq_true, decide_eq_true_eq] at later
            exact ⟨t, rfl, by omega⟩
        next => exact ⟨last, rfl, Int.le_refl last⟩
  cases e with
  | toolResult ts toolId text isError truncatedBytes => exact ⟨last, rfl, Int.le_refl last⟩
  | _ => exact newest

theorem nextTs_time {lastTs : Option Int} {e : ChatEvent} {t : Int} (isNone : resultId e = none)
    (own : isLocalDivider e = false) (isTime : getTime (tsOf e) = some t) :
    ∃ next, nextTs getTime lastTs e = some next ∧ t ≤ next := by
  have next : nextTs getTime lastTs e = newestTs getTime lastTs e := by
    cases e with
    | toolResult ts toolId text isError truncatedBytes => cases isNone
    | _ => rfl
  rw [next, newestTs, isTime, own]
  dsimp only
  cases lastTs with
  | none => exact ⟨t, rfl, Int.le_refl t⟩
  | some last =>
      by_cases later : t > last
      · exact ⟨t, by simp [later], Int.le_refl t⟩
      · exact ⟨last, by simp [later], by omega⟩

theorem dividerOf_short (lastTs : Option Int) (e : ChatEvent) :
    (dividerOf getTime dividerLabel lastTs e).length ≤ 1 := by
  unfold dividerOf
  split
  next => exact Nat.zero_le 1
  next =>
      split
      next => split <;> simp
      next => exact Nat.zero_le 1

/-- After a time is seen, no event of that time draws a divider. -/
theorem divider_drawn {uuid : Text} {t : Int} (events : List ChatEvent) {last : Int}
    (seen : t ≤ last)
    (timed : ∀ e ∈ events, resultId e = none → uuidOf e = uuid → getTime (tsOf e) = some t) :
    lit "div-" ++ uuid ∉ dividerKeys getTime dividerLabel (some last) events := by
  induction events generalizing last with
  | nil => exact List.not_mem_nil
  | cons e rest ih =>
      obtain ⟨next, isNext, later⟩ := @nextTs_le getTime last e
      rw [List.forall_mem_cons] at timed
      rw [dividerKeys, List.mem_append, not_or, isNext]
      refine ⟨fun member => ?_, ih (Int.le_trans seen later) timed.2⟩
      split at member
      next isNone =>
          obtain ⟨item, among, isKey⟩ := List.mem_map.mp member
          obtain ⟨key, t', isTime, quiet⟩ := dividerOf_time among
          have same : uuidOf e = uuid := List.append_cancel_left (key.symm.trans isKey)
          have isTime' := timed.1 (Option.isNone_iff_eq_none.mp isNone) same
          rw [isTime] at isTime'
          cases isTime'
          have gap := quiet last rfl
          rw [dividerGapMs] at gap
          omega
      next => cases member

/-- Events of one uuid and one time draw one divider. -/
theorem dividerKeys_nodup (events : List ChatEvent) (lastTs : Option Int)
    (timed : ∀ e ∈ events, ∀ other ∈ events, resultId e = none → resultId other = none →
      uuidOf e = uuidOf other → tsOf e = tsOf other)
    (own : ∀ e ∈ events, isLocalDivider e = false) :
    (dividerKeys getTime dividerLabel lastTs events).Nodup := by
  induction events generalizing lastTs with
  | nil => exact List.nodup_nil
  | cons e rest ih =>
      have rest' := ih (nextTs getTime lastTs e)
        (fun e' member other member' => timed e' (List.mem_cons_of_mem _ member) other
          (List.mem_cons_of_mem _ member'))
        fun e' member => own e' (List.mem_cons_of_mem _ member)
      rw [dividerKeys]
      cases isResult : resultId e with
      | some id => exact rest'
      | none =>
          rw [Option.isNone_none, if_pos rfl]
          cases drawn : dividerOf getTime dividerLabel lastTs e with
          | nil => exact rest'
          | cons item more =>
              have alone : more = [] := by
                have short := @dividerOf_short getTime dividerLabel lastTs e
                rw [drawn, List.length_cons] at short
                exact List.eq_nil_of_length_eq_zero (by omega)
              obtain ⟨key, t, isTime, -⟩ := @dividerOf_time getTime dividerLabel lastTs e item (by
                rw [drawn]
                exact List.mem_cons_self)
              obtain ⟨next, isNext, seen⟩ :=
                @nextTs_time getTime lastTs e t isResult (own e List.mem_cons_self) isTime
              rw [isNext] at rest' ⊢
              rw [alone, List.map_singleton, key, List.singleton_append, List.nodup_cons]
              refine ⟨divider_drawn rest seen fun other member isNone same => ?_, rest'⟩
              rw [timed other (List.mem_cons_of_mem _ member) e List.mem_cons_self isNone isResult same]
              exact isTime

end Keys

/-! ## The keys of a transcript -/

namespace ChatTranscript

variable {serialize : Json Number → Text} (transcript : ChatTranscript serialize)
  {getTime : Text → Option Int} {dividerLabel : Text → Option Text}

theorem isUuid_prefixed (rest : Text) :
    isUuid (lit "div-" ++ rest) = false ∧ isUuid (lit "mail-" ++ rest) = false ∧
      isUuid (lit "pending-" ++ rest) = false ∧ isUuid (lit "local-" ++ rest) = false ∧
      isUuid (lit "working") = false := ⟨rfl, rfl, rfl, rfl, rfl⟩

theorem event_own {e : ChatEvent} (member : e ∈ transcript.events) : isLocalDivider e = false := by
  cases e with
  | system uuid ts text origin resetsAt =>
      have isId : isUuid uuid = true := transcript.event_uuid member rfl
      by_contra own
      obtain ⟨rest, rfl⟩ := List.isPrefixOf_iff_prefix.mp
        (show (lit "local-").isPrefixOf uuid = true from by
          rwa [Bool.not_eq_false, isLocalDivider] at own)
      rw [(isUuid_prefixed rest).2.2.2.1] at isId
      cases isId
  | _ => rfl

theorem dividers_nodup : (dividerKeys getTime dividerLabel none transcript.events).Nodup :=
  dividerKeys_nodup _ _
    (fun _ member _ member' isNone isNone' => transcript.uuid_time member member' isNone isNone')
    fun _ member => transcript.event_own member

/-- A turn's key is the uuid of its line's record. -/
theorem turnKeys_uuid {line uuid : Text}
    (member : uuid ∈ turnKeys (parseTranscriptLine serialize line)) :
    (recordOf line).map recordUuid = some uuid := by
  obtain ⟨e, among, rfl⟩ := List.mem_map.mp member
  obtain ⟨isEvent, turn⟩ := List.mem_filter.mp among
  have isNone : resultId e = none := by
    by_contra isResult
    rw [isTurn_result isResult] at turn
    cases turn
  cases found : recordOf line with
  | none =>
      rw [parse_recordOf, found] at isEvent
      cases isEvent
  | some record => exact congrArg some ((speaks_parse found).own e isEvent isNone).1.symm

/-- The turns are under distinct keys exactly where no record speaks twice. -/
theorem turns_nodup : (turnKeys transcript.events).Nodup ↔
    ∀ line ∈ transcript.lines, ∀ record, recordOf line = some record →
      (userTexts record).length ≤ 1 := by
  have keys : turnKeys transcript.events =
      transcript.lines.flatMap fun line => turnKeys (parseTranscriptLine serialize line) := by
    simp only [turnKeys, events, List.filter_flatMap, List.map_flatMap]
  have apart : transcript.lines.Pairwise (Function.onFun List.Disjoint fun line =>
      turnKeys (parseTranscriptLine serialize line)) :=
    (List.pairwise_filterMap.mp transcript.distinct).imp fun differ uuid inFirst inSecond =>
      differ uuid (turnKeys_uuid inFirst) uuid (turnKeys_uuid inSecond) rfl
  rw [keys, List.nodup_flatMap, and_iff_left apart]
  refine forall₂_congr fun line _ => ?_
  cases found : recordOf line with
  | none =>
      have none' : turnKeys (parseTranscriptLine serialize line) = [] := by
        rw [parse_recordOf, found]
        rfl
      simp [none']
  | some record =>
      have same : turnKeys (parseTranscriptLine serialize line) =
          List.replicate ((parseTranscriptLine serialize line).filter isTurn).length
            (recordUuid record) := by
        rw [List.eq_replicate_iff]
        refine ⟨List.length_map _, fun uuid member => ?_⟩
        have isUuid := turnKeys_uuid member
        rw [found] at isUuid
        exact (Option.some.inj isUuid).symm
      rw [same, List.nodup_replicate, (speaks_parse found).once]
      simp

end ChatTranscript

/-! ## The whole chat -/

/-- What the chat shows of a transcript. -/
structure ChatShown (getTime : Text → Option Int) (dividerLabel : Text → Option Text)
    (events : List ChatEvent) (pending : List PendingSend) (busy : Bool) : Prop where
  keys : ((buildChatItems getTime dividerLabel events pending busy).map (·.key)).Nodup
  turns : (buildChatItems getTime dividerLabel events pending busy).filterMap shownEvent =
    events.filter fun e => (resultId e).isNone
  fits : ∀ item ∈ buildChatItems getTime dividerLabel events pending busy, Fits item
  results : ∀ key use result,
    .tool key use result ∈ buildChatItems getTime dividerLabel events pending busy →
      ∃ before after', events = before ++ use :: after' ∧
        result = after'.find? fun e => resultId e == some key
  tail : ∃ chat, (if busy then CaretOnly (buildChatItems getTime dividerLabel events [] false) chat
      else chat = buildChatItems getTime dividerLabel events [] false) ∧
    buildChatItems getTime dividerLabel events pending busy =
      chat ++ pending.map (fun p => .pending (lit "pending-" ++ p.key) p) ++
        (if busy then [.working] else [])

/-- No record speaks twice, no two results of one id print a mail, and no tool call is under the
key of another kind of item. -/
structure KeysApart {serialize : Json Number → Text} (getTime : Text → Option Int)
    (dividerLabel : Text → Option Text) (transcript : ChatTranscript serialize)
    (pending : List PendingSend) (busy : Bool) : Prop where
  turns : ∀ line ∈ transcript.lines, ∀ record, recordOf line = some record →
    (userTexts record).length ≤ 1
  mails : (mailKeys transcript.events).Nodup
  tools : ∀ toolId ∈ toolIds transcript.events,
    toolId ∉ dividerKeys getTime dividerLabel none transcript.events ++
      mailKeys transcript.events ++ pendingKeys pending ++ workingKeys busy

section Whole

variable {serialize : Json Number → Text} {getTime : Text → Option Int}
  {dividerLabel : Text → Option Text} {transcript : ChatTranscript serialize}
  {pending : List PendingSend} {busy : Bool}

theorem build_shown (transcript : ChatTranscript serialize) :
    buildChatItems getTime dividerLabel transcript.events [] false =
      shown getTime dividerLabel none transcript.events := by
  have items := @build_items getTime dividerLabel transcript.events ⟨[], none⟩ transcript.tools
  simp [buildChatItems, items]

/-- A key's kind: a uuid, or by its first unit. -/
def keyKind (key : Text) : Option UInt16 := if isUuid key then none else key.head?

theorem disjoint_kinds {first second : List Text} {kind other : Option UInt16}
    (isFirst : ∀ key ∈ first, keyKind key = kind) (isSecond : ∀ key ∈ second, keyKind key = other)
    (apart : kind ≠ other) : first.Disjoint second := fun key inFirst inSecond =>
  apart ((isFirst key inFirst).symm.trans (isSecond key inSecond))

theorem dividerKeys_kind (events : List ChatEvent) (lastTs : Option Int) :
    ∀ key ∈ dividerKeys getTime dividerLabel lastTs events, keyKind key = some (unit 'd') := by
  induction events generalizing lastTs with
  | nil =>
      intro key bad
      cases bad
  | cons e rest ih =>
      intro key member
      rcases List.mem_append.mp member with own | later
      · split at own
        next =>
            obtain ⟨item, among, rfl⟩ := List.mem_map.mp own
            rw [(dividerOf_time among).1]
            rfl
        next => cases own
      · exact ih _ key later

theorem mailKeys_kind (events : List ChatEvent) :
    ∀ key ∈ mailKeys events, keyKind key = some (unit 'm') := by
  intro key member
  obtain ⟨e, -, among⟩ := List.mem_flatMap.mp member
  obtain ⟨item, isMail, rfl⟩ := List.mem_map.mp among
  cases e with
  | toolResult ts toolId text isError truncatedBytes =>
      unfold mailOf fetchedMail at isMail
      dsimp only at isMail
      split at isMail
      next =>
          split at isMail
          next =>
              rw [List.mem_singleton.mp isMail]
              rfl
          next => cases isMail
      next => cases isMail
  | _ => cases isMail

theorem pendingKeys_kind : ∀ key ∈ pendingKeys pending, keyKind key = some (unit 'p') := by
  intro key member
  obtain ⟨send, -, rfl⟩ := List.mem_map.mp member
  rfl

theorem workingKeys_kind : ∀ key ∈ workingKeys busy, keyKind key = some (unit 'w') := by
  intro key member
  cases busy with
  | false => cases member
  | true =>
      rw [List.mem_singleton.mp member]
      rfl

theorem turnKeys_kind (transcript : ChatTranscript serialize) :
    ∀ key ∈ turnKeys transcript.events, keyKind key = none := by
  intro key member
  obtain ⟨e, among, rfl⟩ := List.mem_map.mp member
  obtain ⟨isEvent, turn⟩ := List.mem_filter.mp among
  have isNone : resultId e = none := by
    by_contra isResult
    rw [isTurn_result isResult] at turn
    cases turn
  rw [keyKind, transcript.event_uuid isEvent isNone, if_pos rfl]

/-- The keys are distinct exactly where those that only the records and the tool calls decide
are. -/
theorem keys_nodup (distinct : (pending.map (·.key)).Nodup) :
    ((shown getTime dividerLabel none transcript.events).map (·.key) ++ pendingKeys pending ++
        workingKeys busy).Nodup ↔ KeysApart getTime dividerLabel transcript pending busy := by
  have kinds := @dividerKeys_kind getTime dividerLabel transcript.events none
  have mails := mailKeys_kind transcript.events
  have sends := @pendingKeys_kind pending
  have pulse := @workingKeys_kind busy
  have uuids := turnKeys_kind transcript
  have order : ((shown getTime dividerLabel none transcript.events).map (·.key) ++
      pendingKeys pending ++ workingKeys busy).Perm
      (toolIds transcript.events ++ (dividerKeys getTime dividerLabel none transcript.events ++
        mailKeys transcript.events ++ pendingKeys pending ++ workingKeys busy ++
        turnKeys transcript.events)) := by
    have shownKeys := List.perm_iff_count.mp
      (@shown_keys getTime dividerLabel transcript.events none)
    rw [List.perm_iff_count]
    intro key
    have here := shownKeys key
    simp only [List.count_append] at here ⊢
    omega
  have sendsNodup : (pendingKeys pending).Nodup := by
    have same : pendingKeys pending = (pending.map (·.key)).map (lit "pending-" ++ ·) := by
      rw [pendingKeys, List.map_map]
      rfl
    rw [same]
    exact distinct.map fun _ _ => List.append_cancel_left
  have pulseNodup : (workingKeys busy).Nodup := by cases busy <;> simp [workingKeys]
  rw [order.nodup_iff]
  simp only [List.nodup_append', List.disjoint_append_left]
  constructor
  · rintro ⟨-, ⟨⟨⟨⟨-, mailsNodup, -⟩, -⟩, -⟩, turnsNodup, -⟩, apart⟩
    exact ⟨transcript.turns_nodup.mp turnsNodup, mailsNodup, fun toolId isTool bad =>
      apart isTool (List.mem_append_left _ bad)⟩
  · rintro ⟨turns, mailsNodup, tools⟩
    refine ⟨transcript.tools, ⟨⟨⟨⟨transcript.dividers_nodup, mailsNodup,
      disjoint_kinds kinds mails (by decide)⟩, sendsNodup,
      disjoint_kinds kinds sends (by decide), disjoint_kinds mails sends (by decide)⟩, pulseNodup,
      ⟨disjoint_kinds kinds pulse (by decide), disjoint_kinds mails pulse (by decide)⟩,
      disjoint_kinds sends pulse (by decide)⟩, transcript.turns_nodup.mpr turns,
      ⟨⟨disjoint_kinds kinds uuids (by decide), disjoint_kinds mails uuids (by decide)⟩,
      disjoint_kinds sends uuids (by decide)⟩, disjoint_kinds pulse uuids (by decide)⟩, ?_⟩
    intro toolId isTool bad
    rcases List.mem_append.mp bad with taken | isTurn'
    · exact tools toolId isTool taken
    · obtain ⟨e, among, rfl⟩ := List.mem_map.mp isTurn'
      obtain ⟨isEvent, turn⟩ := List.mem_filter.mp among
      have isNone : resultId e = none := by
        by_contra isResult
        rw [isTurn_result isResult] at turn
        cases turn
      have shaped := transcript.shaped (uuidOf e) isTool
      rw [transcript.event_uuid isEvent isNone] at shaped
      cases shaped

/-- A tool item has the one result of its id that comes after its call. -/
theorem shown_result (transcript : ChatTranscript serialize) {key : Text} {use : ChatEvent}
    {result : Option ChatEvent}
    (member : .tool key use result ∈ shown getTime dividerLabel none transcript.events) :
    ∃ before after', transcript.events = before ++ use :: after' ∧
      result = after'.find? fun e => resultId e == some key := by
  obtain ⟨before, after', whole, found⟩ := shown_results transcript.events none member
  refine ⟨before, after', whole, ?_⟩
  have isTool : key ∈ toolIds transcript.events := by
    have use' := shown_fits transcript.events none _ member
    exact List.mem_filterMap.mpr ⟨use, by simp [whole], use'⟩
  have once := transcript.answered key isTool
  have fewer : (resultsOf key after').length ≤ 1 := by
    refine Nat.le_trans (List.Sublist.length_le (List.Sublist.filter _ ?_)) once
    show after'.Sublist transcript.events
    rw [whole]
    exact (List.sublist_cons_self use after').trans (List.sublist_append_right before _)
  rw [found, ← List.head?_filter]
  show (resultsOf key after').getLast? = (resultsOf key after').head?
  cases results : resultsOf key after' with
  | nil => rfl
  | cons first more =>
      rw [results, List.length_cons] at fewer
      rw [List.eq_nil_of_length_eq_zero (by omega : more.length = 0)]
      rfl

end Whole

/-- The sends that are not confirmed yet, under distinct keys. -/
abbrev PendingList : Type := { sends : List PendingSend // (sends.map (·.key)).Nodup }

/-- Everything but the keys holds of every transcript; the keys are distinct exactly where no
record speaks twice and no tool call takes a key of another kind. -/
theorem chat_shown {serialize : Json Number → Text} (getTime : Text → Option Int)
    (dividerLabel : Text → Option Text) (transcript : ChatTranscript serialize)
    (pending : PendingList) (busy : Bool) :
    ChatShown getTime dividerLabel transcript.events pending.1 busy ↔
      KeysApart getTime dividerLabel transcript pending.1 busy := by
  let plain := shown getTime dividerLabel none transcript.events
  let chat := if busy then markStreaming plain else plain
  have caret : CaretOnly plain chat := by
    cases busy with
    | true => exact markStreaming_caret plain
    | false => exact .inl rfl
  have built : buildChatItems getTime dividerLabel transcript.events pending.1 busy =
      chat ++ pending.1.map (fun p => .pending (lit "pending-" ++ p.key) p) ++
        (if busy then [.working] else []) := by
    have items := @build_items getTime dividerLabel transcript.events ⟨[], none⟩ transcript.tools
    rw [buildChatItems, items]
    rfl
  obtain ⟨sameKeys, sameTurns, sameFits, sameTools⟩ := caret.same
  have keys : (buildChatItems getTime dividerLabel transcript.events pending.1 busy).map (·.key) =
      plain.map (·.key) ++ pendingKeys pending.1 ++ workingKeys busy := by
    rw [built, List.map_append, List.map_append, sameKeys, List.map_map]
    cases busy <;> rfl
  rw [← @keys_nodup serialize getTime dividerLabel transcript pending.1 busy pending.2, ← keys]
  constructor
  · exact fun isShown => isShown.keys
  · intro nodup
    refine ⟨nodup, ?_, ?_, ?_, chat, ?_, built⟩
    · have sends : (pending.1.map fun p => ChatItem.pending (lit "pending-" ++ p.key) p).filterMap
          shownEvent = [] := by
        rw [List.filterMap_map]
        exact List.filterMap_eq_nil_iff.mpr fun _ _ => rfl
      have pulse : (if busy then [ChatItem.working] else []).filterMap shownEvent = [] := by
        cases busy <;> rfl
      rw [built, List.filterMap_append, List.filterMap_append, sameTurns, sends, pulse,
        List.append_nil, List.append_nil, shown_turns]
    · intro item member
      rw [built, List.mem_append, List.mem_append] at member
      rcases member with (inside | send) | pulse
      · exact sameFits (shown_fits transcript.events none) item inside
      · obtain ⟨send, -, rfl⟩ := List.mem_map.mp send
        rfl
      · cases busy with
        | true =>
            rw [List.mem_singleton.mp pulse]
            trivial
        | false => cases pulse
    · intro key use result member
      rw [built, List.mem_append, List.mem_append] at member
      rcases member with (inside | send) | pulse
      · exact shown_result transcript (sameTools key use result inside)
      · obtain ⟨send, -, bad⟩ := List.mem_map.mp send
        cases bad
      · cases busy with
        | true => cases List.mem_singleton.mp pulse
        | false => cases pulse
    · rw [build_shown]
      cases busy with
      | true => exact caret
      | false => rfl

/-! ## A record of two texts -/

def twoTexts : Text :=
  lit "\x7b\"type\":\"user\",\"uuid\":\"00000000-0000-4000-8000-000000000001\"," ++
    lit "\"message\":\x7b\"content\":[\x7b\"type\":\"text\",\"text\":\"a\"\x7d," ++
    lit "\x7b\"type\":\"text\",\"text\":\"b\"\x7d]\x7d\x7d"

theorem twoTexts_read :
    toolIds ([twoTexts].flatMap (parseTranscriptLine fun _ => [])) = [] ∧
      (recordOf twoTexts).map recordUuid = some (lit "00000000-0000-4000-8000-000000000001") := by
  decide +kernel

def twoTextsTranscript : ChatTranscript fun _ => [] where
  lines := [twoTexts]
  uuids := by
    intro line member record found
    have uuid := twoTexts_read.2
    rw [← List.mem_singleton.mp member, found] at uuid
    rw [Option.some.inj uuid]
    decide
  distinct := by
    rw [List.filterMap_cons, twoTexts_read.2]
    exact List.nodup_singleton _
  tools := by
    rw [twoTexts_read.1]
    exact List.nodup_nil
  shaped := by
    rw [twoTexts_read.1]
    exact fun _ bad => by cases bad
  answered := by
    rw [twoTexts_read.1]
    exact fun _ bad => by cases bad

/-- The two texts are two items of one key. -/
theorem chat_shown_fails :
    ¬ChatShown (fun _ => none) (fun _ => none) twoTextsTranscript.events [] false := by
  intro isShown
  have repeated : ¬((buildChatItems (fun _ => none) (fun _ => none)
      ([twoTexts].flatMap (parseTranscriptLine fun _ => [])) [] false).map (·.key)).Nodup := by
    decide +kernel
  exact repeated isShown.keys

end Ccrc.Pwa
