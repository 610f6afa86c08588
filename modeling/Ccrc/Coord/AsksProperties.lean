import Ccrc.Coord.Asks
import Ccrc.Library.Lists

/-! An ask is answered at most once. A row has one take outstanding at most, a
settlement records an answer under a take that still stands, and a decided row is
never written again. -/

set_option autoImplicit false

namespace Ccrc.Coord

open Library Shared

/-! ## One row -/

/-- The row of an id. -/
abbrev askOf (rows : List AskRow) (id : Int) : Option AskRow := rowOf AskRow.id rows id

theorem askOf_updateRows {rows : List AskRow} {guard : AskRow → Bool} {set : AskRow → AskRow}
    (keeps : ∀ row, (set row).id = row.id) (id : Int) :
    askOf (updateRows rows guard set).1 id =
      (askOf rows id).map fun row => if guard row then set row else row :=
  rowOf_updateRows keeps id

theorem isAskState_text (state : AskState) : isAskState state.text = some state := by
  cases state <;> decide

theorem askState_inj {first second : AskState} (same : first.text = second.text) :
    first = second :=
  Option.some.inj ((isAskState_text first).symm.trans (same ▸ isAskState_text second))

@[simp] theorem askState_text_iff (first second : AskState) :
    first.text = second.text ↔ first = second :=
  ⟨askState_inj, congrArg AskState.text⟩

/-- A row that no writer takes any more. -/
def AskRow.Decided (row : AskRow) : Prop :=
  row.state = AskState.answered.text ∨ row.state = AskState.declined.text ∨
    row.state = AskState.stale.text

instance (row : AskRow) : Decidable row.Decided := inferInstanceAs (Decidable (_ ∨ _ ∨ _))

theorem askTakeSource_ok {state : AskState} {sameInstance : Bool} {source : AskTakeSource}
    (taken : askTakeSource state sameInstance = .ok source) :
    state = source.state ∧ sameInstance = true := by
  cases sameInstance <;> cases state <;> cases taken <;> exact ⟨rfl, rfl⟩

theorem hydrateAsk_state {row : AskRow} {state : AskState} (read : hydrateAsk row = some state)
    (known : state ≠ .unknown) : row.state = state.text := by
  unfold hydrateAsk at read
  split at read
  next =>
      have same := Option.some.inj read
      cases word : isAskState row.state with
      | none => exact absurd (same.symm.trans (by rw [word]; rfl)) known
      | some named =>
          rw [word] at same
          cases same
          unfold isAskState at word
          have spelled := List.find?_some word
          exact (beq_iff_eq.mp spelled).symm
  next => cases read

/-- What a take does: it moves the row it found, or nothing. -/
theorem takeAskForAnswer_cases (rows : List AskRow) (id askAt : Int) :
    (∃ found source, (takeAskForAnswer rows id askAt).2 = .ok found source ∧
      askOf rows id = some found ∧ takeGuard id askAt source found = true ∧
      (takeAskForAnswer rows id askAt).1 = (updateRows rows (takeGuard id askAt source) fun row =>
        { row with state := AskState.answering.text }).1) ∨
    ((∀ found source, (takeAskForAnswer rows id askAt).2 ≠ .ok found source) ∧
      (takeAskForAnswer rows id askAt).1 = rows) := by
  unfold takeAskForAnswer
  split
  next => exact Or.inr ⟨by simp, rfl⟩
  next row isRow =>
      split
      next => exact Or.inr ⟨by simp, rfl⟩
      next state read =>
          split
          next => exact Or.inr ⟨by simp, rfl⟩
          next source decided =>
              obtain ⟨isState, sameInstance⟩ := askTakeSource_ok decided
              have known : state ≠ .unknown := by
                rw [isState]
                cases source <;> decide
              have word := isState ▸ hydrateAsk_state read known
              have taken : takeGuard id askAt source row = true := by
                simp [takeGuard, (rowOf_some isRow).2, word, beq_iff_eq.mp sameInstance]
              dsimp only
              split
              next unchanged => exact Or.inr ⟨by simp, updateRows_none unchanged⟩
              next => exact Or.inl ⟨row, source, rfl, isRow, taken, rfl⟩

/-! ## One call -/

section Call

variable {Principal : Type} [DecidableEq Principal]

/-- What a call makes of the row of an id. -/
def askMoved (world : AskWorld Principal) (row : AskRow) : AskCall Principal → AskRow
  | .take _ id askAt =>
      match (takeAskForAnswer world.rows id askAt).2 with
      | .ok _ _ => if row.id = id then { row with state := AskState.answering.text } else row
      | .refused _ | .threw => row
  | .untake principal id =>
      match world.taken.find? (·.isOf principal id) with
      | none => row
      | some taken =>
          if row.id = id ∧ row.state = AskState.answering.text then
            { row with state := taken.source.state.text }
          else row
  | .settle _ id answerer answer now =>
      if row.id = id ∧ row.state = AskState.answering.text then
        { row with state := AskState.answered.text, answeredBy := some answerer
                   answer := some answer, answeredAt := some now }
      else row
  | .release id now =>
      if row.id = id ∧ row.state = AskState.held.text then
        { row with state := AskState.released.text, releasedAt := some now }
      else row
  | .decline id now =>
      if row.id = id ∧ row.state = AskState.held.text then
        { row with state := AskState.declined.text, releasedAt := some now }
      else row
  | .stale dialogId childId now =>
      if row.dialogId = dialogId ∧ row.childId = childId ∧
          (row.state = AskState.held.text ∨ row.state = AskState.answering.text) then
        { row with state := AskState.stale.text, releasedAt := some now }
      else row

theorem askStep_take (world : AskWorld Principal) (principal : Principal) (id askAt : Int) :
    (askStep world (.take principal id askAt)).rows = (takeAskForAnswer world.rows id askAt).1 := by
  simp only [askStep]
  split <;> rfl

theorem askOf_step (world : AskWorld Principal) (call : AskCall Principal) (id : Int) :
    askOf (askStep world call).rows id = (askOf world.rows id).map (askMoved world · call) := by
  cases call with
  | take principal askId askAt =>
      rw [askStep_take]
      rcases takeAskForAnswer_cases world.rows askId askAt with
        ⟨found, source, taken, isFound, guarded, moved⟩ | ⟨refused, same⟩
      · rw [moved, askOf_updateRows]
        · refine Option.map_congr fun row isRow => ?_
          simp only [askMoved, taken]
          by_cases here : row.id = askId
          · have isOne : found = row := by
              rw [← here, (rowOf_some isRow).2] at isFound
              exact Option.some.inj (isFound.symm.trans isRow)
            rw [if_pos here, if_pos (isOne ▸ guarded)]
          · rw [if_neg here, if_neg (by simp [takeGuard, here])]
        · exact fun _ => rfl
      · have still : (askMoved world · (.take principal askId askAt)) = fun row => row := by
          funext row
          simp only [askMoved]
          split
          next found source taken => exact absurd taken (refused found source)
          next => rfl
          next => rfl
        rw [same, still, Option.map_id']
  | untake principal askId =>
      cases held : world.taken.find? (·.isOf principal askId) with
      | none => simp [askStep, askMoved, held]
      | some taken =>
          simp only [askStep, held, untakeAsk]
          rw [askOf_updateRows]
          · simp [askMoved, held]
          · exact fun _ => rfl
  | settle principal askId answerer answer now =>
      simp only [askStep, settleAsk]
      rw [askOf_updateRows]
      · simp [askMoved]
      · exact fun _ => rfl
  | release askId now =>
      simp only [askStep, releaseAsk, endHold]
      rw [askOf_updateRows]
      · simp [askMoved]
      · exact fun _ => rfl
  | decline askId now =>
      simp only [askStep, declineAsk, endHold]
      rw [askOf_updateRows]
      · simp [askMoved]
      · exact fun _ => rfl
  | stale dialogId childId now =>
      simp only [askStep, staleAsk]
      rw [askOf_updateRows]
      · simp [askMoved, and_assoc]
      · exact fun _ => rfl

theorem askMoved_id (world : AskWorld Principal) (row : AskRow) (call : AskCall Principal) :
    (askMoved world row call).id = row.id := by
  unfold askMoved
  repeat' split
  all_goals rfl

/-- A decided row is the same row after any call. -/
theorem askMoved_decided (world : AskWorld Principal) {row : AskRow} (decided : row.Decided)
    (isRow : askOf world.rows row.id = some row) (call : AskCall Principal) :
    askMoved world row call = row := by
  have notLive : row.state ≠ AskState.held.text ∧ row.state ≠ AskState.released.text ∧
      row.state ≠ AskState.answering.text := by
    rcases decided with state | state | state <;> simp [state]
  cases call with
  | take principal id askAt =>
      simp only [askMoved]
      rcases takeAskForAnswer_cases world.rows id askAt with
        ⟨found, source, taken, isFound, guarded, _⟩ | ⟨refused, _⟩
      · rw [taken]
        by_cases here : row.id = id
        · rw [← here, isRow] at isFound
          cases isFound
          cases source <;> simp [takeGuard, AskTakeSource.state, notLive] at guarded
        · exact if_neg here
      · split
        next found source taken => exact absurd taken (refused found source)
        next => rfl
        next => rfl
  | untake principal id =>
      simp only [askMoved]
      split
      next => rfl
      next => exact if_neg fun both => notLive.2.2 both.2
  | settle principal id answerer answer now => exact if_neg fun both => notLive.2.2 both.2
  | release id now => exact if_neg fun both => notLive.1 both.2
  | decline id now => exact if_neg fun both => notLive.1 both.2
  | stale dialogId childId now =>
      exact if_neg fun all => all.2.2.elim notLive.1 notLive.2.2

/-- Only a take that succeeds makes a row `answering`. -/
theorem askMoved_answering {world : AskWorld Principal} {row : AskRow} {call : AskCall Principal}
    (answering : (askMoved world row call).state = AskState.answering.text) :
    askMoved world row call = row ∧ row.state = AskState.answering.text ∨
      ∃ principal askAt found source, call = .take principal row.id askAt ∧
        (takeAskForAnswer world.rows row.id askAt).2 = .ok found source := by
  cases call with
  | take principal id askAt =>
      simp only [askMoved] at answering ⊢
      split at answering
      next found source taken =>
          by_cases here : row.id = id
          · subst here
            exact Or.inr ⟨principal, askAt, found, source, rfl, taken⟩
          · rw [if_neg here] at answering ⊢
            exact Or.inl ⟨rfl, answering⟩
      next => exact Or.inl ⟨rfl, answering⟩
      next => exact Or.inl ⟨rfl, answering⟩
  | untake principal id =>
      simp only [askMoved] at answering ⊢
      split at answering
      next => exact Or.inl ⟨rfl, answering⟩
      next taken _ =>
          split at answering
          next => cases source : taken.source <;> simp [source, AskTakeSource.state] at answering
          next other =>
              rw [if_neg other]
              exact Or.inl ⟨rfl, answering⟩
  | settle principal id answerer answer now =>
      simp only [askMoved] at answering ⊢
      split at answering
      next => simp at answering
      next other =>
          rw [if_neg other]
          exact Or.inl ⟨rfl, answering⟩
  | release id now =>
      simp only [askMoved] at answering ⊢
      split at answering
      next => simp at answering
      next other =>
          rw [if_neg other]
          exact Or.inl ⟨rfl, answering⟩
  | decline id now =>
      simp only [askMoved] at answering ⊢
      split at answering
      next => simp at answering
      next other =>
          rw [if_neg other]
          exact Or.inl ⟨rfl, answering⟩
  | stale dialogId childId now =>
      simp only [askMoved] at answering ⊢
      split at answering
      next => simp at answering
      next other =>
          rw [if_neg other]
          exact Or.inl ⟨rfl, answering⟩

/-! ## Takes -/

/-- A row that a take has moved and nothing put back. -/
def AskRow.Taken (row : AskRow) : Prop :=
  row.state = AskState.answering.text ∨ row.state = AskState.answered.text ∨
    row.state = AskState.stale.text

/-- One take of a row is outstanding at most, a row being answered is under it, and
the row of a take was not put back. -/
structure TakesStand (world : AskWorld Principal) : Prop where
  one : (world.taken.map (·.id)).Nodup
  standing : ∀ id row, askOf world.rows id = some row → row.state = AskState.answering.text →
    ∃ taken ∈ world.taken, taken.id = id
  live : ∀ taken ∈ world.taken, ∃ row, askOf world.rows taken.id = some row ∧ row.Taken

theorem askOf_step_some {world : AskWorld Principal} {call : AskCall Principal} {id : Int}
    {next : AskRow} (found : askOf (askStep world call).rows id = some next) :
    ∃ row, askOf world.rows id = some row ∧ next = askMoved world row call := by
  rw [askOf_step] at found
  obtain ⟨row, isRow, same⟩ := Option.map_eq_some_iff.mp found
  exact ⟨row, isRow, same.symm⟩

theorem askOf_step_of {world : AskWorld Principal} (call : AskCall Principal) {id : Int}
    {row : AskRow} (found : askOf world.rows id = some row) :
    askOf (askStep world call).rows id = some (askMoved world row call) := by
  rw [askOf_step, found]
  rfl

/-- The takes that a call leaves: a new one of a row that had none, or fewer. -/
theorem askStep_taken (world : AskWorld Principal) (call : AskCall Principal) :
    (∃ principal id askAt found source, call = .take principal id askAt ∧
      (takeAskForAnswer world.rows id askAt).2 = .ok found source ∧
      (askStep world call).taken = ⟨principal, id, source⟩ :: world.taken) ∨
    (askStep world call).taken.Sublist world.taken := by
  cases call with
  | take principal id askAt =>
      simp only [askStep]
      split
      next found source taken =>
          exact Or.inl ⟨principal, id, askAt, found, source, rfl, taken, rfl⟩
      next => exact Or.inr (List.Sublist.refl _)
      next => exact Or.inr (List.Sublist.refl _)
  | untake principal id =>
      simp only [askStep]
      split
      next => exact Or.inr (List.Sublist.refl _)
      next => exact Or.inr List.filter_sublist
  | settle principal id answerer answer now => exact Or.inr List.filter_sublist
  | release id now => exact Or.inr (List.Sublist.refl _)
  | decline id now => exact Or.inr (List.Sublist.refl _)
  | stale dialogId childId now => exact Or.inr (List.Sublist.refl _)

omit [DecidableEq Principal] in
/-- A take of a row that is under one fails. -/
theorem TakesStand.untaken {world : AskWorld Principal} (stands : TakesStand world) {id askAt : Int}
    {found : AskRow} {source : AskTakeSource}
    (taken : (takeAskForAnswer world.rows id askAt).2 = .ok found source) :
    ∀ other ∈ world.taken, other.id ≠ id := by
  rintro other member rfl
  obtain ⟨row, isRow, live⟩ := stands.live other member
  rcases takeAskForAnswer_cases world.rows other.id askAt with
    ⟨again, origin, result, isFound, guarded, _⟩ | ⟨refused, _⟩
  · cases isFound.symm.trans isRow
    have free : row.state = origin.state.text := by
      simp only [takeGuard, Bool.and_eq_true, beq_iff_eq] at guarded
      exact guarded.1.2
    rcases live with state | state | state <;> rw [free] at state <;>
      cases origin <;> simp [AskTakeSource.state] at state
  · exact refused found source taken

theorem AskTaken.isOf_iff {principal : Principal} {id : Int} {taken : AskTaken Principal} :
    taken.isOf principal id = true ↔ taken.principal = principal ∧ taken.id = id := by
  simp [AskTaken.isOf]

/-- A take ends only with its row's answering. -/
theorem askStep_keeps {world : AskWorld Principal} {call : AskCall Principal}
    {taken : AskTaken Principal} (member : taken ∈ world.taken) {row : AskRow}
    (isRow : askOf world.rows taken.id = some row) (answering : row.state = AskState.answering.text)
    (still : (askMoved world row call).state = AskState.answering.text) :
    taken ∈ (askStep world call).taken := by
  have sameId : row.id = taken.id := (rowOf_some isRow).2
  cases call with
  | take principal id askAt =>
      simp only [askStep]
      split
      next => exact List.mem_cons_of_mem _ member
      next => exact member
      next => exact member
  | untake principal id =>
      simp only [askStep]
      cases held : world.taken.find? (·.isOf principal id) with
      | none => exact member
      | some other =>
          refine List.mem_filter.mpr ⟨member, ?_⟩
          cases removed : taken.isOf principal id with
          | false => rfl
          | true =>
              have ofCall := AskTaken.isOf_iff.mp removed
              simp only [askMoved, held] at still
              rw [if_pos ⟨sameId.trans ofCall.2, answering⟩] at still
              cases source : other.source <;> simp [source, AskTakeSource.state] at still
  | settle principal id answerer answer now =>
      refine List.mem_filter.mpr ⟨member, ?_⟩
      cases removed : taken.isOf principal id with
      | false => rfl
      | true =>
          have ofCall := AskTaken.isOf_iff.mp removed
          simp only [askMoved] at still
          rw [if_pos ⟨sameId.trans ofCall.2, answering⟩] at still
          simp at still
  | release id now => exact member
  | decline id now => exact member
  | stale dialogId childId now => exact member

/-- The row of a take that stays is not put back. -/
theorem TakesStand.askMoved_taken {world : AskWorld Principal} (stands : TakesStand world)
    {call : AskCall Principal} {taken : AskTaken Principal} (member : taken ∈ world.taken)
    (stays : taken ∈ (askStep world call).taken) {row : AskRow}
    (isRow : askOf world.rows taken.id = some row) (live : row.Taken) :
    (askMoved world row call).Taken := by
  have sameId : row.id = taken.id := (rowOf_some isRow).2
  have notHeld : row.state ≠ AskState.held.text := by
    rcases live with state | state | state <;> simp [state]
  cases call with
  | take principal id askAt =>
      simp only [askMoved]
      split
      next =>
          split
          next => exact Or.inl rfl
          next => exact live
      next => exact live
      next => exact live
  | untake principal id =>
      simp only [askStep] at stays
      simp only [askMoved]
      cases held : world.taken.find? (·.isOf principal id) with
      | none => exact live
      | some other =>
          rw [held] at stays
          dsimp only
          by_cases here : row.id = id ∧ row.state = AskState.answering.text
          · have ofOther := AskTaken.isOf_iff.mp (List.find?_some held)
            have same : other = taken := List.inj_on_of_nodup_map stands.one
              (List.mem_of_find?_eq_some held) member
              (ofOther.2.trans (here.1.symm.trans sameId))
            have kept := (List.mem_filter.mp stays).2
            rw [← same, AskTaken.isOf_iff.mpr ofOther] at kept
            cases kept
          · rw [if_neg here]
            exact live
  | settle principal id answerer answer now =>
      simp only [askMoved]
      split
      next => exact Or.inr (Or.inl rfl)
      next => exact live
  | release id now =>
      simp only [askMoved]
      rw [if_neg fun both => notHeld both.2]
      exact live
  | decline id now =>
      simp only [askMoved]
      rw [if_neg fun both => notHeld both.2]
      exact live
  | stale dialogId childId now =>
      simp only [askMoved]
      split
      next => exact Or.inr (Or.inr rfl)
      next => exact live

theorem TakesStand.step {world : AskWorld Principal} (stands : TakesStand world)
    (call : AskCall Principal) : TakesStand (askStep world call) := by
  refine ⟨?_, fun id next isNext answering => ?_, fun taken member => ?_⟩
  · rcases askStep_taken world call with ⟨principal, id, askAt, found, source, rfl, took, new⟩ | fewer
    · rw [new, List.map_cons, List.nodup_cons]
      refine ⟨fun again => ?_, stands.one⟩
      obtain ⟨other, isOther, same⟩ := List.mem_map.mp again
      exact stands.untaken took other isOther same
    · exact stands.one.sublist (fewer.map _)
  · obtain ⟨row, isRow, rfl⟩ := askOf_step_some isNext
    rcases askMoved_answering answering with
      ⟨same, before⟩ | ⟨principal, askAt, found, source, rfl, took⟩
    · obtain ⟨taken, member, rfl⟩ := stands.standing id row isRow before
      exact ⟨taken, askStep_keeps member isRow before answering, rfl⟩
    · refine ⟨⟨principal, row.id, source⟩, ?_, (rowOf_some isRow).2⟩
      simp only [askStep, took]
      exact List.mem_cons_self
  · rcases askStep_taken world call with ⟨principal, id, askAt, found, source, rfl, took, new⟩ | fewer
    · rw [new] at member
      cases List.mem_cons.mp member with
      | inl isNew =>
          rw [isNew]
          rcases takeAskForAnswer_cases world.rows id askAt with
            ⟨again, origin, result, isFound, _⟩ | ⟨refused, _⟩
          · refine ⟨_, askOf_step_of _ isFound, Or.inl ?_⟩
            simp only [askMoved, took]
            rw [if_pos (rowOf_some isFound).2]
          · exact absurd took (refused found source)
      | inr old =>
          obtain ⟨row, isRow, live⟩ := stands.live taken old
          exact ⟨_, askOf_step_of _ isRow, stands.askMoved_taken old (new ▸ member) isRow live⟩
    · have old := fewer.subset member
      obtain ⟨row, isRow, live⟩ := stands.live taken old
      exact ⟨_, askOf_step_of _ isRow, stands.askMoved_taken old member isRow live⟩

/-! ## Runs -/

/-- Rows as a run may find them: none is under a take. -/
structure NoTakes (world : AskWorld Principal) : Prop where
  taken : world.taken = []
  rows : ∀ row ∈ world.rows, row.state ≠ AskState.answering.text

omit [DecidableEq Principal] in
theorem NoTakes.stands {world : AskWorld Principal} (none : NoTakes world) : TakesStand world := by
  refine ⟨by simp [none.taken], fun id row isRow answering => ?_, fun taken member => ?_⟩
  · exact absurd answering (none.rows row (List.mem_of_find?_eq_some isRow))
  · rw [none.taken] at member
    cases member

theorem askRun_stands {start : AskWorld Principal} (none : NoTakes start)
    (calls : List (AskCall Principal)) : TakesStand (runFrom askStep start calls) := by
  have step : ∀ (world : AskWorld Principal) call, TakesStand world → TakesStand (askStep world call) :=
    fun _ call stands => stands.step call
  exact runFrom_invariant step none.stands calls

/-- A decided row is the same row after any calls. -/
theorem askRun_decided {world : AskWorld Principal} {id : Int} {row : AskRow}
    (isRow : askOf world.rows id = some row) (decided : row.Decided)
    (calls : List (AskCall Principal)) :
    askOf (runFrom askStep world calls).rows id = some row := by
  have sameId := (rowOf_some isRow).2
  subst sameId
  have step : ∀ (world : AskWorld Principal) call, askOf world.rows row.id = some row →
      askOf (askStep world call).rows row.id = some row := fun world call isRow =>
    (askOf_step_of call isRow).trans
      (congrArg some (askMoved_decided world decided isRow call))
  exact runFrom_invariant step isRow calls

/-- A lapsed row is under a take that found it lapsed, or under none. -/
structure Lapsed (id : Int) (world : AskWorld Principal) : Prop where
  stands : TakesStand world
  source : ∀ taken ∈ world.taken, taken.id = id → taken.source = .released
  row : ∃ row, askOf world.rows id = some row ∧ row.state ≠ AskState.held.text

theorem Lapsed.step {id : Int} {world : AskWorld Principal} (lapsed : Lapsed id world)
    (call : AskCall Principal) : Lapsed id (askStep world call) := by
  obtain ⟨row, isRow, notHeld⟩ := lapsed.row
  refine ⟨lapsed.stands.step call, fun taken member sameId => ?_,
    _, askOf_step_of call isRow, ?_⟩
  · rcases askStep_taken world call with ⟨principal, askId, askAt, found, source, rfl, took, new⟩ | fewer
    · rw [new] at member
      cases List.mem_cons.mp member with
      | inr old => exact lapsed.source taken old sameId
      | inl isNew =>
          rw [isNew] at sameId ⊢
          rcases takeAskForAnswer_cases world.rows askId askAt with
            ⟨again, origin, result, isFound, guarded, _⟩ | ⟨refused, _⟩
          · cases took.symm.trans result
            rw [← sameId, isFound] at isRow
            cases isRow
            cases source with
            | released => rfl
            | held =>
                simp only [takeGuard, Bool.and_eq_true, beq_iff_eq] at guarded
                exact absurd guarded.1.2 notHeld
          · exact absurd took (refused found source)
    · exact lapsed.source taken (fewer.subset member) sameId
  · have rowId := (rowOf_some isRow).2
    cases call with
    | take principal askId askAt =>
        simp only [askMoved]
        repeat' split
        all_goals first | exact notHeld | simp
    | untake principal askId =>
        simp only [askMoved]
        split
        next => exact notHeld
        next taken held =>
            split
            next both =>
                have ofCall := AskTaken.isOf_iff.mp (List.find?_some held)
                have released := lapsed.source taken (List.mem_of_find?_eq_some held)
                  (ofCall.2.trans (both.1.symm.trans rowId))
                simp [released, AskTakeSource.state]
            next => exact notHeld
    | settle principal askId answerer answer now =>
        simp only [askMoved]
        split
        next => simp
        next => exact notHeld
    | release askId now =>
        simp only [askMoved]
        rw [if_neg fun both => notHeld both.2]
        exact notHeld
    | decline askId now =>
        simp only [askMoved]
        rw [if_neg fun both => notHeld both.2]
        exact notHeld
    | stale dialogId childId now =>
        simp only [askMoved]
        split
        next => simp
        next => exact notHeld

/-- A row that lapsed is never put back to `held`. -/
theorem askRun_lapsed {world : AskWorld Principal} (stands : TakesStand world) {id : Int}
    {row : AskRow} (isRow : askOf world.rows id = some row)
    (released : row.state = AskState.released.text) (calls : List (AskCall Principal)) :
    ∃ later, askOf (runFrom askStep world calls).rows id = some later ∧
      later.state ≠ AskState.held.text := by
  have lapsed : Lapsed id world := by
    refine ⟨stands, fun taken member sameId => ?_, row, isRow, by simp [released]⟩
    obtain ⟨under, isUnder, live⟩ := stands.live taken member
    rw [sameId, isRow] at isUnder
    cases isUnder
    rcases live with state | state | state <;> simp [released] at state
  have step : ∀ (world : AskWorld Principal) call, Lapsed id world → Lapsed id (askStep world call) :=
    fun _ call lapsed => lapsed.step call
  have after : Lapsed id (runFrom askStep world calls) := runFrom_invariant step lapsed calls
  exact after.row

/-- A row being answered is where some take left it. -/
theorem askRun_answering {start : AskWorld Principal} (none : NoTakes start)
    (calls : List (AskCall Principal)) {id : Int} {row : AskRow}
    (isRow : askOf (runFrom askStep start calls).rows id = some row)
    (answering : row.state = AskState.answering.text) :
    ∃ before principal askAt found source since,
      calls = before ++ .take principal id askAt :: since ∧
      (takeAskForAnswer (runFrom askStep start before).rows id askAt).2 = .ok found source ∧
      ∀ part rest, since = part ++ rest →
        askOf (runFrom askStep start (before ++ .take principal id askAt :: part)).rows id =
          some row := by
  induction calls using List.reverseRecOn generalizing row with
  | nil => exact absurd answering (none.rows row (List.mem_of_find?_eq_some isRow))
  | append_singleton calls call ih =>
      rw [runFrom_append] at isRow
      obtain ⟨old, isOld, rfl⟩ := askOf_step_some isRow
      rcases askMoved_answering answering with
        ⟨same, state⟩ | ⟨principal, askAt, found, source, rfl, took⟩
      · rw [same] at isRow ⊢
        obtain ⟨before, principal, askAt, found, source, since, split, took, stood⟩ :=
          ih isOld state
        refine ⟨before, principal, askAt, found, source, since ++ [call], ?_, took, ?_⟩
        · rw [split]
          simp
        · intro part rest cut
          cases rest using List.reverseRecOn with
          | nil =>
              rw [List.append_nil] at cut
              have whole : before ++ .take principal id askAt :: part = calls ++ [call] := by
                rw [split, ← cut]
                simp
              rw [whole, runFrom_append]
              exact isRow
          | append_singleton rest last =>
              rw [← List.append_assoc] at cut
              exact stood part rest (List.append_inj_left' cut rfl)
      · have sameId := (rowOf_some isOld).2
        subst sameId
        refine ⟨calls, principal, askAt, found, source, [], rfl, took, fun part rest cut => ?_⟩
        rw [(List.append_eq_nil_iff.mp cut.symm).1, runFrom_append]
        exact isRow

/-- What holds after a run, and of everything that may follow it. -/
structure AnsweredOnce (start : AskWorld Principal) (calls : List (AskCall Principal)) : Prop where
  /-- No two takes of one row are outstanding. -/
  one : ((runFrom askStep start calls).taken.map (·.id)).Nodup
  decided : ∀ id row more, askOf (runFrom askStep start calls).rows id = some row → row.Decided →
    askOf (runFrom askStep start (calls ++ more)).rows id = some row
  lapsed : ∀ id row more, askOf (runFrom askStep start calls).rows id = some row →
    row.state = AskState.released.text →
    ∃ later, askOf (runFrom askStep start (calls ++ more)).rows id = some later ∧
      later.state ≠ AskState.held.text
  /-- A settlement that records an answer finds the row where a take put it, unmoved
  since. -/
  settled : ∀ principal id answerer answer now row next,
    askOf (runFrom askStep start calls).rows id = some row →
    askOf (runFrom askStep start (calls ++ [.settle principal id answerer answer now])).rows id =
      some next →
    next ≠ row →
    next = { row with state := AskState.answered.text, answeredBy := some answerer
                      answer := some answer, answeredAt := some now } ∧
    ∃ before taker askAt found source since,
      calls = before ++ .take taker id askAt :: since ∧
      (takeAskForAnswer (runFrom askStep start before).rows id askAt).2 = .ok found source ∧
      ∀ part rest, since = part ++ rest →
        askOf (runFrom askStep start (before ++ .take taker id askAt :: part)).rows id = some row

/-- Over every interleaving of the six writers an ask is answered at most once, under
a take that stands, and a decided ask is never rewritten. -/
theorem askRun_answeredOnce {start : AskWorld Principal} (none : NoTakes start)
    (calls : List (AskCall Principal)) : AnsweredOnce start calls where
  one := (askRun_stands none calls).one
  decided := by
    intro id row more isRow decided
    rw [runFrom_append]
    exact askRun_decided isRow decided more
  lapsed := by
    intro id row more isRow released
    rw [runFrom_append]
    exact askRun_lapsed (askRun_stands none calls) isRow released more
  settled := by
    intro principal id answerer answer now row next isRow isNext different
    rw [runFrom_append] at isNext
    have moved := (askOf_step_of (.settle principal id answerer answer now) isRow).symm.trans isNext
    cases moved
    by_cases answering : row.id = id ∧ row.state = AskState.answering.text
    · exact ⟨if_pos answering, askRun_answering none calls isRow answering.2⟩
    · exact absurd (if_neg answering) different

end Call

namespace AskExample

def ask : AskRow where
  id := 1
  atTime := 0
  childId := Text.lit "child"
  parentId := Text.lit "parent"
  runId := some 3
  askKey := Text.lit "key"
  askAt := 7
  dialogId := Text.lit "dialog"
  question := Text.lit "which?"
  options := Text.lit "[\"a\",\"b\"]"
  state := AskState.held.text
  answeredBy := none
  answer := none
  answeredAt := none
  releasedAt := none
  releaseReason := none

def start : AskWorld Nat := ⟨[ask], []⟩

/-- A refused press, a lapse, a late take that the operator loses, and its answer. -/
def calls : List (AskCall Nat) :=
  [.take 1 1 7, .untake 1 1, .release 1 50, .take 1 1 7, .take 2 1 7, .untake 2 1,
    .settle 1 1 (Text.lit "parent") (Text.lit "a") 60, .decline 1 70]

end AskExample

open AskExample in
theorem askRun_answeredOnce_late : AnsweredOnce start calls ∧
    askOf (runFrom askStep start calls).rows 1 =
      some { ask with state := AskState.answered.text, answeredBy := some (Text.lit "parent")
                      answer := some (Text.lit "a"), answeredAt := some 60
                      releasedAt := some 50 } :=
  ⟨askRun_answeredOnce ⟨rfl, by decide⟩ calls, by decide +kernel⟩

end Ccrc.Coord
