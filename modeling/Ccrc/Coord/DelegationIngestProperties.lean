import Ccrc.Coord.DelegationIngest

/-! What a read of a bucket answers, against the file that it was read from, and what
the journal takes of it. -/

set_option autoImplicit false

namespace Ccrc.Coord

open Library Shared

/-! ## A read against its file -/

/-- A complete line of a bucket's file that its owner's reader takes. -/
structure ValidLine (file : Bytes) (id : DelegationBucketId) (start : Nat) (rawLine : Bytes)
    (line : DelegationSpoolLine) : Prop where
  isLine : IsLine newline file start rawLine
  parsed : parseDelegationSpoolLine rawLine id.toSpoolOwner = .ok line

/-- An event is that of a line of the file, at offsets that a number keeps. -/
def FromLine (file : Bytes) (id : DelegationBucketId) (event : DelegationEventEnvelope) : Prop :=
  ∃ start rawLine line, ValidLine file id start rawLine line ∧
    delegationBucketUtcHour id.bucket ≠ none ∧ isOffset (start + rawLine.length + 1) = true ∧
    event = envelopeOf id start rawLine line

/-- Every line that ends at or below the cursor has its event. -/
structure Covered (file : Bytes) (id : DelegationBucketId) (cursor : Nat)
    (events : List DelegationEventEnvelope) : Prop where
  within : cursor ≤ file.length
  held : ∀ start rawLine line, ValidLine file id start rawLine line →
    start + rawLine.length + 1 ≤ cursor → envelopeOf id start rawLine line ∈ events

theorem ValidLine.grow {file grown : Bytes} {id : DelegationBucketId} {start : Nat}
    {rawLine : Bytes} {line : DelegationSpoolLine} (valid : ValidLine file id start rawLine line)
    (more : file <+: grown) : ValidLine grown id start rawLine line :=
  ⟨valid.isLine.extend more, valid.parsed⟩

theorem FromLine.grow {file grown : Bytes} {id : DelegationBucketId}
    {event : DelegationEventEnvelope} (of : FromLine file id event) (more : file <+: grown) :
    FromLine grown id event := by
  obtain ⟨start, rawLine, line, valid, isHour, fits, isEvent⟩ := of
  exact ⟨start, rawLine, line, valid.grow more, isHour, fits, isEvent⟩

namespace Covered

variable {file grown : Bytes} {id : DelegationBucketId} {cursor : Nat}
  {events more : List DelegationEventEnvelope}

theorem start (file : Bytes) (id : DelegationBucketId) (events : List DelegationEventEnvelope) :
    Covered file id 0 events :=
  ⟨Nat.zero_le _, fun _ _ _ _ inside => absurd inside (by omega)⟩

theorem mono (covered : Covered file id cursor events) (kept : events ⊆ more) :
    Covered file id cursor more :=
  ⟨covered.within, fun start rawLine line valid inside =>
    kept (covered.held start rawLine line valid inside)⟩

/-- What a file gains stands past every cursor of it. -/
theorem grow (covered : Covered file id cursor events) (gained : file <+: grown) :
    Covered grown id cursor events where
  within := covered.within.trans gained.length_le
  held := by
    intro start rawLine line valid inside
    have own := valid.isLine.restrict gained (inside.trans covered.within)
    exact covered.held start rawLine line ⟨own, valid.parsed⟩ inside

end Covered

/-- A row or a result stands for its bucket, and is covered by events. -/
structure RowSound (file : Bytes) (id : DelegationBucketId)
    (events : List DelegationEventEnvelope) (row : DelegationBucketCursor) : Prop where
  named : row.toDelegationBucketId = id
  covers : Covered file id row.cursor events

theorem RowSound.fresh (file : Bytes) (id : DelegationBucketId)
    (events : List DelegationEventEnvelope) : RowSound file id events (freshRow id) :=
  ⟨rfl, Covered.start file id events⟩

theorem RowSound.mono {file : Bytes} {id : DelegationBucketId}
    {events more : List DelegationEventEnvelope} {row : DelegationBucketCursor}
    (sound : RowSound file id events row) (kept : events ⊆ more) : RowSound file id more row :=
  ⟨sound.named, sound.covers.mono kept⟩

section Read

variable {file : Bytes} {id : DelegationBucketId} {events : List DelegationEventEnvelope}
  {input : DelegationBucketInput} {state : DelegationIngestState}

theorem rowSound_getD (sound : ∀ row, state.bucketCursors.get? id = some row →
      RowSound file id events row) :
    RowSound file id events ((state.bucketCursors.get? id).getD (freshRow id)) := by
  cases found : state.bucketCursors.get? id with
  | none => exact RowSound.fresh file id events
  | some row => exact sound row found

theorem anchorIntact_spec {anchor : DelegationBucketAnchor} {cursor : Nat} {bytes : Bytes}
    (intact : anchorIntact anchor cursor bytes = true) :
    anchor.start < cursor ∧ cursor - anchor.start ≤ bytes.length ∧
      bytes[cursor - anchor.start - 1]? = some newline := by
  simp only [anchorIntact, Bool.and_eq_true, decide_eq_true_eq, beq_iff_eq] at intact
  exact ⟨intact.1.1.1.1, intact.1.1.1.2, intact.1.1.2⟩

theorem mem_filterMap_acceptLine {places : List (Nat × Bytes)} {event : DelegationEventEnvelope} :
    event ∈ places.filterMap (acceptLine id) ↔ ∃ start rawLine line, (start, rawLine) ∈ places ∧
      parseDelegationSpoolLine rawLine id.toSpoolOwner = .ok line ∧
      envelopeOf id start rawLine line = event := by
  simp only [List.mem_filterMap, acceptLine, Option.map_eq_some_iff, Except.toOption]
  constructor
  · rintro ⟨⟨start, rawLine⟩, member, line, read, isEvent⟩
    split at read
    next parsed =>
        cases read
        exact ⟨start, rawLine, _, member, parsed, isEvent⟩
    next => cases read
  · rintro ⟨start, rawLine, line, member, parsed, isEvent⟩
    exact ⟨(start, rawLine), member, line, by rw [parsed], isEvent⟩

/-- The framed lines are those of the file from the cursor to where the window's last
newline stands. -/
theorem mem_framed {lineStart cursor : Nat} (window : input.bytes <+: file.drop input.readStart)
    (place : input.readStart + lineStart = cursor) (inside : lineStart ≤ input.bytes.length)
    (boundary : Boundary newline file cursor) (start : Nat) (rawLine : Bytes) :
    (start, rawLine) ∈ placed cursor (frame newline (input.bytes.drop lineStart)).1 ↔
      IsLine newline file start rawLine ∧ cursor ≤ start ∧ start + rawLine.length + 1 ≤
        cursor + (joined newline (frame newline (input.bytes.drop lineStart)).1).length := by
  obtain ⟨beyond, whole⟩ := window
  have held : file.drop cursor = joined newline (frame newline (input.bytes.drop lineStart)).1 ++
      ((frame newline (input.bytes.drop lineStart)).2 ++ beyond) := by
    rw [← List.append_assoc, frame_joined, ← List.drop_append_of_le_length inside, whole,
      List.drop_drop, place]
  exact mem_placed held boundary (frame_free _).1

theorem framedTo_le (input : DelegationBucketInput) {lineStart : Nat}
    (inside : lineStart ≤ input.bytes.length) :
    input.readStart + lineStart +
        (joined newline (frame newline (input.bytes.drop lineStart)).1).length ≤
      input.readStart + input.bytes.length := by
  have whole : (joined newline (frame newline (input.bytes.drop lineStart)).1 ++
      (frame newline (input.bytes.drop lineStart)).2).length = _ :=
    congrArg List.length (frame_joined (input.bytes.drop lineStart))
  rw [List.length_append, List.length_drop] at whole
  omega

theorem window_le {start : Nat} {bytes : Bytes} (window : bytes <+: file.drop start)
    (begins : start ≤ file.length) : start + bytes.length ≤ file.length := by
  have fits := window.length_le
  rw [List.length_drop] at fits
  omega

theorem isOffset_mono {first second : Nat} (fits : isOffset second = true) (le : first ≤ second) :
    isOffset first = true := by
  simp only [isOffset, decide_eq_true_eq] at fits ⊢
  omega

theorem anchor_boundary {anchor : DelegationBucketAnchor} {cursor : Nat}
    (window : input.bytes <+: file.drop input.readStart) (starts : input.readStart = anchor.start)
    (intact : anchorIntact anchor cursor input.bytes = true) :
    Boundary newline file cursor := by
  obtain ⟨below, long, ends⟩ := anchorIntact_spec intact
  refine Or.inr ⟨cursor - 1, by omega, ?_⟩
  obtain ⟨beyond, whole⟩ := window
  have left : (input.bytes ++ beyond)[cursor - anchor.start - 1]? =
      input.bytes[cursor - anchor.start - 1]? := List.getElem?_append_left (by omega)
  rw [← left, whole, List.getElem?_drop, starts] at ends
  rw [← ends]
  congr 1
  omega

theorem inputDefect_none (sound : inputDefect input = none) :
    delegationBucketUtcHour input.bucket ≠ none ∧ isOffset input.size = true := by
  simp only [inputDefect, Option.or_eq_none_iff, Option.map_eq_none_iff, List.find?_eq_none,
    identityDefect] at sound
  constructor
  · intro isNone
    have hour := sound.1.2
    rw [if_pos isNone] at hour
    split at hour <;> cases hour
  · simpa using sound.2 ("size", input.size) (by simp)

/-- What a read that frames lines was checked for. -/
structure Framed (input : DelegationBucketInput) (durable : DelegationBucketCursor)
    (lineStart : Nat) : Prop where
  accepted : inputDefect input = none
  live : durable.replaced = false
  starts : input.readStart = (durable.anchor.map (·.start)).getD durable.cursor
  ranged : input.readStart + input.bytes.length ≤ input.size
  anchored : match durable.anchor with
    | none => durable.cursor = 0 ∧ lineStart = 0
    | some anchor => anchorIntact anchor durable.cursor input.bytes = true ∧
        lineStart = durable.cursor - anchor.start

/-- A read is a gap, the absence of a bucket that was read to its end, or framed lines. -/
inductive IngestAnswer (input : DelegationBucketInput) (state : DelegationIngestState)
    (durable : DelegationBucketCursor) : DelegationBucketResult → Prop where
  | gap (detail : Text) (replaced applicable : Bool) :
      IngestAnswer input state durable
        (gap state input.toDelegationBucketId detail replaced applicable)
  | absent : IngestAnswer input state durable
      { accepted := [], cursor := { durable with intervalState := .measured, detail := none }
        interval := .measured, detail := none, applicable := true }
  | framed (lineStart : Nat) (checked : Framed input durable lineStart) :
      IngestAnswer input state durable (frameBucket input state durable lineStart)

theorem ingestPresent_cases {durable : DelegationBucketCursor} (accepted : inputDefect input = none)
    (live : durable.replaced = false) (isCursor : input.cursor = durable.cursor)
    (starts : input.readStart = (durable.anchor.map (·.start)).getD durable.cursor) :
    IngestAnswer input state durable (ingestPresent input state durable) := by
  unfold ingestPresent
  dsimp only
  split
  next => exact .gap _ _ _
  next =>
      split
      next => exact .gap _ _ _
      next anchored =>
          split
          next => exact .gap _ _ _
          next ranged =>
              split
              next none =>
                  refine .framed 0 ⟨accepted, live, starts, Nat.le_of_not_lt ranged, ?_⟩
                  rw [none, isCursor] at anchored
                  rw [none]
                  exact ⟨by simpa using anchored, rfl⟩
              next anchor isAnchor =>
                  split
                  next intact =>
                      refine .framed _ ⟨accepted, live, starts, Nat.le_of_not_lt ranged, ?_⟩
                      rw [isCursor] at intact
                      rw [isAnchor, isCursor]
                      exact ⟨intact, rfl⟩
                  next => exact .gap _ _ _

theorem ingest_cases (input : DelegationBucketInput) (state : DelegationIngestState) :
    IngestAnswer input state ((state.bucketCursors.get? input.toDelegationBucketId).getD
      (freshRow input.toDelegationBucketId)) (ingestDelegationBucket input state) := by
  unfold ingestDelegationBucket
  dsimp only
  split
  next => exact .gap _ _ _
  next accepted =>
      split
      next => exact .gap _ _ _
      next live =>
          split
          next => exact .gap _ _ _
          next =>
              split
              next => exact .gap _ _ _
              next =>
                  split
                  next => exact .gap _ _ _
                  next =>
                      split
                      next => exact .gap _ _ _
                      next agrees =>
                          split
                          next => exact .gap _ _ _
                          next starts =>
                              split
                              next =>
                                  exact ingestPresent_cases accepted (Bool.eq_false_iff.mpr live)
                                    (by omega) (by simpa using starts)
                              next =>
                                  split
                                  next => exact .gap _ _ _
                                  next =>
                                      split
                                      next => exact .gap _ _ _
                                      next => exact .absent

/-- A read keeps the id of its row. -/
theorem ingest_named (named : ∀ row, state.bucketCursors.get? input.toDelegationBucketId = some row →
      row.toDelegationBucketId = input.toDelegationBucketId) :
    (ingestDelegationBucket input state).cursor.toDelegationBucketId =
      input.toDelegationBucketId := by
  have own : ((state.bucketCursors.get? input.toDelegationBucketId).getD
      (freshRow input.toDelegationBucketId)).toDelegationBucketId = input.toDelegationBucketId := by
    cases found : state.bucketCursors.get? input.toDelegationBucketId with
    | none => rfl
    | some row => exact named row found
  have cases := ingest_cases input state
  generalize ingestDelegationBucket input state = result at cases
  cases cases with
  | gap detail replaced applicable => exact own
  | absent => exact own
  | framed lineStart =>
      unfold frameBucket
      dsimp only
      split
      next => exact own
      next => rfl

/-- Where the lines that a read frames stand in the file that its window is of. -/
theorem Framed.place {durable : DelegationBucketCursor} {lineStart : Nat}
    (checked : Framed input durable lineStart) (window : input.bytes <+: file.drop input.readStart) :
    input.readStart + lineStart = durable.cursor ∧ lineStart ≤ input.bytes.length ∧
      Boundary newline file durable.cursor := by
  have anchored := checked.anchored
  have starts := checked.starts
  split at anchored
  next none =>
      obtain ⟨zero, rfl⟩ := anchored
      rw [none, Option.map_none, Option.getD_none] at starts
      exact ⟨by omega, Nat.zero_le _, Or.inl zero⟩
  next anchor isAnchor =>
      obtain ⟨intact, rfl⟩ := anchored
      rw [isAnchor, Option.map_some, Option.getD_some] at starts
      obtain ⟨below, long, _⟩ := anchorIntact_spec intact
      exact ⟨by omega, long, anchor_boundary window starts intact⟩

/-- What a read of a window accepts are lines of the file. -/
theorem ingest_taken (window : input.bytes <+: file.drop input.readStart)
    {event : DelegationEventEnvelope}
    (taken : event ∈ (ingestDelegationBucket input state).accepted) :
    FromLine file input.toDelegationBucketId event := by
  have cases := ingest_cases input state
  generalize ingestDelegationBucket input state = result at cases taken
  cases cases with
  | gap => cases taken
  | absent => cases taken
  | framed lineStart checked =>
      obtain ⟨place, inside, boundary⟩ := checked.place window
      obtain ⟨isHour, isSize⟩ := inputDefect_none checked.accepted
      unfold frameBucket at taken
      dsimp only at taken
      split at taken
      next => cases taken
      next =>
          rw [place] at taken
          obtain ⟨start, rawLine, line, isPlace, parsed, isEvent⟩ :=
            mem_filterMap_acceptLine.mp taken
          obtain ⟨isLine, past, ends⟩ :=
            (mem_framed window place inside boundary start rawLine).mp isPlace
          have upTo := framedTo_le input inside
          rw [place] at upTo
          exact ⟨start, rawLine, line, ⟨isLine, parsed⟩, isHour,
            isOffset_mono isSize ((ends.trans upTo).trans checked.ranged), isEvent.symm⟩

/-- Lines from a covered cursor to where the window's last newline stands are accepted. -/
theorem frameBucket_covers {durable : DelegationBucketCursor} {lineStart : Nat}
    (sound : Covered file input.toDelegationBucketId ((state.bucketCursors.get?
      input.toDelegationBucketId).getD (freshRow input.toDelegationBucketId)).cursor events)
    (covered : Covered file input.toDelegationBucketId durable.cursor events)
    (window : input.bytes <+: file.drop input.readStart)
    (place : input.readStart + lineStart = durable.cursor)
    (inside : lineStart ≤ input.bytes.length) (boundary : Boundary newline file durable.cursor) :
    Covered file input.toDelegationBucketId (frameBucket input state durable lineStart).cursor.cursor
      (events ++ (frameBucket input state durable lineStart).accepted) := by
  have framed := mem_framed window place inside boundary
  have upTo := framedTo_le input inside
  have begins : input.readStart ≤ file.length := (Nat.le.intro place).trans covered.within
  unfold frameBucket
  dsimp only
  rw [place]
  rw [place] at upTo
  split
  next => exact sound.mono (List.subset_append_left _ _)
  next =>
      refine ⟨upTo.trans (window_le window begins), fun start rawLine line valid ended => ?_⟩
      rw [List.mem_append]
      by_cases old : start + rawLine.length + 1 ≤ durable.cursor
      · exact Or.inl (covered.held start rawLine line valid old)
      · have past := valid.isLine.start_ge boundary (by omega)
        exact Or.inr (mem_filterMap_acceptLine.mpr ⟨start, rawLine, line,
          (framed start rawLine).mpr ⟨valid.isLine, past, ended⟩, valid.parsed, rfl⟩)

/-- A read of a window of the file, against rows that are covered. -/
theorem ingest_covers (rows : ∀ row, state.bucketCursors.get? input.toDelegationBucketId = some row →
      RowSound file input.toDelegationBucketId events row)
    (window : input.bytes <+: file.drop input.readStart) :
    Covered file input.toDelegationBucketId (ingestDelegationBucket input state).cursor.cursor
      (events ++ (ingestDelegationBucket input state).accepted) := by
  have sound := (rowSound_getD rows).covers
  have cases := ingest_cases input state
  generalize ingestDelegationBucket input state = result at cases
  cases cases with
  | gap => exact sound.mono (List.subset_append_left _ _)
  | absent => exact sound.mono (List.subset_append_left _ _)
  | framed lineStart checked =>
      obtain ⟨place, inside, boundary⟩ := checked.place window
      exact frameBucket_covers sound sound window place inside boundary

/-- Against a replaced row a read accepts nothing. -/
theorem ingest_replaced {row : DelegationBucketCursor}
    (found : state.bucketCursors.get? input.toDelegationBucketId = some row)
    (was : row.replaced = true) : (ingestDelegationBucket input state).accepted = [] := by
  have cases := ingest_cases input state
  rw [found, Option.getD_some] at cases
  generalize ingestDelegationBucket input state = result at cases
  cases cases with
  | gap => rfl
  | absent => rfl
  | framed lineStart checked => exact absurd was (by rw [checked.live]; decide)

end Read

/-! ## What the journal takes -/

theorem planDelegationJournalAppend_eq (eventIds : List Text)
    (events : List DelegationEventEnvelope) :
    planDelegationJournalAppend eventIds events = firstBy (·.eventId) eventIds events := by
  induction events generalizing eventIds with
  | nil => rfl
  | cons event rest ih =>
      rw [planDelegationJournalAppend, firstBy]
      split
      next => exact ih _
      next => rw [ih]

section Plan

variable {journal accepted : List DelegationEventEnvelope}

theorem planned_sublist (eventIds : List Text) (events : List DelegationEventEnvelope) :
    (planDelegationJournalAppend eventIds events).Sublist events := by
  rw [planDelegationJournalAppend_eq]
  exact firstBy_sublist _ _

/-- However many of the planned records are appended, no id is in the journal twice. -/
theorem planned_once (once : (journal.map (·.eventId)).Nodup) (appended : Nat) :
    ((journal ++ (planDelegationJournalAppend (journal.map (·.eventId)) accepted).take
      appended).map (·.eventId)).Nodup := by
  rw [planDelegationJournalAppend_eq, List.map_append, List.nodup_append]
  refine ⟨once, (firstBy_nodup _ _ accepted).sublist ((List.take_sublist _ _).map _), ?_⟩
  intro held isHeld added isAdded same
  obtain ⟨event, member, isId⟩ := List.mem_map.mp isAdded
  have unseen := firstBy_unseen (List.mem_of_mem_take member)
  exact unseen (isId ▸ same ▸ isHeld)

/-- Where ids tell events apart, the journal then holds all that was accepted. -/
theorem planned_covers (apart : ∀ first ∈ journal ++ accepted, ∀ second ∈ journal ++ accepted,
      first.eventId = second.eventId → first = second) {event : DelegationEventEnvelope}
    (member : event ∈ accepted) :
    event ∈ journal ++ planDelegationJournalAppend (journal.map (·.eventId)) accepted := by
  have own := List.mem_append_right journal member
  rw [planDelegationJournalAppend_eq, List.mem_append]
  by_cases known : event.eventId ∈ journal.map (·.eventId)
  · obtain ⟨held, isHeld, same⟩ := List.mem_map.mp known
    exact Or.inl (apart held (List.mem_append_left _ isHeld) event own same ▸ isHeld)
  · obtain ⟨first, isFirst, same⟩ := firstBy_covers (·.eventId) member known
    have taken := List.mem_append_right journal ((firstBy_sublist _ _).mem isFirst)
    exact Or.inr (apart first taken event own same ▸ isFirst)

end Plan

theorem setCursor_get? (cursors : Map DelegationBucketId DelegationBucketCursor)
    (cursor : DelegationBucketCursor) (id : DelegationBucketId) :
    (setCursor cursors cursor).get? id = cursors.get? id ∨
      (id = cursor.toDelegationBucketId ∧ ∃ row, (setCursor cursors cursor).get? id = some row ∧
        row.toDelegationBucketId = id ∧ row.cursor = cursor.cursor ∧
        (row.replaced = true ↔ cursor.replaced = true ∨
          ∃ prior, cursors.get? id = some prior ∧ prior.replaced = true)) := by
  by_cases own : id = cursor.toDelegationBucketId
  · subst own
    refine Or.inr ⟨rfl, ?_⟩
    unfold setCursor
    dsimp only
    split
    next prior found =>
        split
        next kept =>
            exact ⟨_, Map.get?_set_self _ _ _, rfl, rfl,
              iff_of_true rfl (Or.inr ⟨prior, found, kept.1⟩)⟩
        next fresh =>
            refine ⟨_, Map.get?_set_self _ _ _, rfl, rfl, ?_⟩
            constructor
            · exact Or.inl
            · rintro (own | ⟨_, again, was⟩)
              · exact own
              · cases found.symm.trans again
                by_contra cleared
                exact fresh ⟨was, cleared⟩
    next none => exact ⟨_, Map.get?_set_self _ _ _, rfl, rfl, by simp [none]⟩
  · refine Or.inl ?_
    unfold setCursor
    dsimp only
    split
    next =>
        split
        · exact Map.get?_set_ne own _ _
        · exact Map.get?_set_ne own _ _
    next => exact Map.get?_set_ne own _ _

end Ccrc.Coord
