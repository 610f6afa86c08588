import Ccrc.Library.JsonScan

/-! Where a JSON text is cut: an object stands on neither side of a cut inside a value,
and white space around a value is read over. -/

set_option autoImplicit false

namespace Ccrc.Library

namespace Json

open Text (lit unit)

/-! ## Objects beside a cut -/

/-- What the reader reads whole, the scanner ends: after an object for certain. -/
theorem parse_ended {text : Text} {value : Json Number} (read : parse text = some value) :
    scan .start text = some .done ∨
      (scan .start text = some .scalar ∧ ∀ fields, value ≠ .object fields) := by
  unfold parse at read
  split at read
  next => cases read
  next value' rest isValue =>
      split at read
      next blank =>
          cases read
          obtain ⟨lead, taken, rfl, space, spanned⟩ := (parse_scan _).1 isValue
          have trail := skipSpace_nil.mp blank
          rw [scan_join (scan_space (.inl rfl) space)]
          rcases spanned.top with done | ⟨scalar, notObject⟩
          · exact .inl ((scan_join done rest).trans (scan_space (.inr (.inl rfl)) trail))
          · rw [scan_join scalar]
            cases rest with
            | nil => exact .inr ⟨rfl, notObject⟩
            | cons c rest =>
                obtain ⟨first, later⟩ := List.forall_mem_cons.mp trail
                refine .inl ?_
                rw [scan_step (show scanUnit .scalar c = some .done by simp [scanUnit, first])]
                exact scan_space (.inr (.inl rfl)) later
      next => cases read

theorem parse_object_done {text : Text} {fields : List (Text × Json Number)}
    (read : parse text = some (.object fields)) : scan .start text = some .done := by
  rcases parse_ended read with done | ⟨-, notObject⟩
  · exact done
  · exact absurd rfl (notObject fields)

/-- Only white space follows a value. -/
theorem scan_done {text : Text} {state : Scan} (scanned : scan .done text = some state) :
    AllSpace text ∧ state = .done := by
  induction text with
  | nil =>
      cases scanned
      exact ⟨nofun, rfl⟩
  | cons c rest ih =>
      rw [scan_cons, Option.bind_eq_some_iff] at scanned
      obtain ⟨next, step, later⟩ := scanned
      rw [scanUnit] at step
      split at step
      next first =>
          cases step
          exact ⟨List.forall_mem_cons.mpr ⟨first, (ih later).1⟩, (ih later).2⟩
      next => cases step

/-- An object's text can be read no further. -/
theorem space_after_object {before after : Text} {value : Json Number}
    (whole : parse (before ++ after) = some value) {fields : List (Text × Json Number)}
    (read : parse before = some (.object fields)) : AllSpace after := by
  have done := parse_object_done read
  rcases parse_ended whole with ended | ⟨ended, -⟩
  all_goals
    rw [scan_join done] at ended
    exact (scan_done ended).1

/-- Two scans of one text, the first of them `depth` brackets and one more inside. -/
def Deeper (depth : Nat) : Scan → Scan → Prop
  | first, .start | first, .done | first, .scalar => first = .outside depth
  | first, .outside inner => first = .outside (inner + depth + 1)
  | first, .inside inner => first = .inside (inner + depth + 1)
  | first, .escaped inner => first = .escaped (inner + depth + 1)

theorem deeper_after {depth inner : Nat} :
    Deeper depth (Scan.after (inner + depth + 1)) (Scan.after inner) := by
  cases inner with
  | zero => exact congrArg Scan.outside (Nat.zero_add depth)
  | succ inner => exact congrArg Scan.outside (by omega)

theorem outside_stays {c : UInt16} (stays : isSpace c = true ∨ isPlain c = true) (depth : Nat) :
    scanUnit (.outside depth) c = some (.outside depth) := by
  rcases stays with space | plain
  · obtain ⟨notQuote, notOpen, notClose, notBackslash, -⟩ := isSpace_cases space
    simp [scanUnit, notQuote, notOpen, notClose, notBackslash]
  · simp only [isPlain, Bool.and_eq_true, Bool.not_eq_true', bne_iff_ne] at plain
    obtain ⟨⟨⟨⟨-, notOpen⟩, notClose⟩, notQuote⟩, notBackslash⟩ := plain
    simp [scanUnit, notQuote, notOpen, notClose, notBackslash]

theorem deeper_step {depth : Nat} {first second next : Scan} {c : UInt16}
    (deeper : Deeper depth first second) (step : scanUnit second c = some next) :
    ∃ next', scanUnit first c = some next' ∧ Deeper depth next' next := by
  cases second with
  | start =>
      cases deeper
      rw [scanUnit] at step
      split at step
      next space =>
          cases step
          exact ⟨_, outside_stays (.inl space) depth, rfl⟩
      next =>
          split at step
          next quote =>
              cases step
              exact ⟨.inside (depth + 1), by simp [scanUnit, quote],
                congrArg Scan.inside (by omega)⟩
          next notQuote =>
              split at step
              next opens =>
                  cases step
                  exact ⟨.outside (depth + 1), by simp [scanUnit, notQuote, opens],
                    congrArg Scan.outside (by omega)⟩
              next =>
                  split at step
                  next plain =>
                      cases step
                      exact ⟨_, outside_stays (.inr plain) depth, rfl⟩
                  next => cases step
  | scalar =>
      cases deeper
      rw [scanUnit] at step
      split at step
      next space =>
          cases step
          exact ⟨_, outside_stays (.inl space) depth, rfl⟩
      next =>
          split at step
          next plain =>
              cases step
              exact ⟨_, outside_stays (.inr plain) depth, rfl⟩
          next => cases step
  | done =>
      cases deeper
      rw [scanUnit] at step
      split at step
      next space =>
          cases step
          exact ⟨_, outside_stays (.inl space) depth, rfl⟩
      next => cases step
  | outside inner =>
      cases deeper
      rw [scanUnit] at step ⊢
      split at step
      next quote =>
          cases step
          rw [if_pos quote]
          exact ⟨_, rfl, congrArg Scan.inside (by omega)⟩
      next notQuote =>
          rw [if_neg notQuote]
          split at step
          next opens =>
              cases step
              rw [if_pos opens]
              exact ⟨_, rfl, congrArg Scan.outside (by omega)⟩
          next notOpen =>
              rw [if_neg notOpen]
              split at step
              next closes =>
                  cases step
                  rw [if_pos closes]
                  exact ⟨_, rfl, deeper_after⟩
              next notClose =>
                  rw [if_neg notClose]
                  split at step
                  next => cases step
                  next notBackslash =>
                      cases step
                      rw [if_neg notBackslash]
                      exact ⟨_, rfl, rfl⟩
  | inside inner =>
      cases deeper
      rw [scanUnit] at step ⊢
      split at step
      next quote =>
          cases step
          rw [if_pos quote]
          exact ⟨_, rfl, deeper_after⟩
      next notQuote =>
          rw [if_neg notQuote]
          split at step
          next backslash =>
              cases step
              rw [if_pos backslash]
              exact ⟨_, rfl, rfl⟩
          next notBackslash =>
              cases step
              rw [if_neg notBackslash]
              exact ⟨_, rfl, rfl⟩
  | escaped inner =>
      cases deeper
      rw [scanUnit] at step ⊢
      split at step
      next escape =>
          cases step
          rw [if_pos escape]
          exact ⟨_, rfl, rfl⟩
      next => cases step

theorem deeper_scan {depth : Nat} {first second last : Scan} {text : Text}
    (deeper : Deeper depth first second) (scanned : scan second text = some last) :
    ∃ last', scan first text = some last' ∧ Deeper depth last' last := by
  induction text generalizing first second with
  | nil =>
      cases scanned
      exact ⟨first, rfl, deeper⟩
  | cons c rest ih =>
      rw [scan_cons, Option.bind_eq_some_iff] at scanned
      obtain ⟨next, step, later⟩ := scanned
      obtain ⟨next', step', deeper'⟩ := deeper_step deeper step
      rw [scan_step step']
      exact ih deeper' later

def Scan.inString : Scan → Bool
  | .inside _ => true
  | _ => false

def Scan.outString : Scan → Bool
  | .start | .scalar | .done | .outside _ => true
  | .inside _ | .escaped _ => false

/-- Of two scans of one text exactly one is inside a string. -/
def Crossed (first second : Scan) : Prop :=
  (first.inString = true ∧ second.outString = true) ∨
    (first.outString = true ∧ second.inString = true)

theorem after_outString (depth : Nat) : (Scan.after depth).outString = true := by
  cases depth <;> rfl

theorem inString_step {state next : Scan} {c : UInt16} (inString : state.inString = true)
    (step : scanUnit state c = some next) (notBackslash : c ≠ unit '\\') :
    (if c = unit '"' then next.outString else next.inString) = true := by
  cases state with
  | inside depth =>
      rw [scanUnit] at step
      split at step
      next quote =>
          cases step
          rw [if_pos quote]
          exact after_outString depth
      next notQuote =>
          cases step
          rw [if_neg notQuote]
          rfl
  | _ => cases inString

theorem outString_step {state next : Scan} {c : UInt16} (outString : state.outString = true)
    (step : scanUnit state c = some next) :
    c ≠ unit '\\' ∧ (if c = unit '"' then next.inString else next.outString) = true := by
  have backslash : ∀ {state : Scan}, state.outString = true → scanUnit state (unit '\\') = none := by
    intro state outString
    cases state with
    | inside | escaped => cases outString
    | _ => rfl
  refine ⟨?_, ?_⟩
  · rintro rfl
    rw [backslash outString] at step
    cases step
  · cases state with
    | inside | escaped => cases outString
    | start =>
        rw [scanUnit] at step
        split at step
        next space =>
            cases step
            rw [if_neg (isSpace_cases space).1]
            rfl
        next =>
            split at step
            next quote =>
                cases step
                rw [if_pos quote]
                rfl
            next notQuote =>
                rw [if_neg notQuote]
                split at step
                next => cases step; rfl
                next =>
                    split at step
                    next => cases step; rfl
                    next => cases step
    | scalar =>
        rw [scanUnit] at step
        have notQuote : c ≠ unit '"' := by
          rintro rfl
          cases step
        rw [if_neg notQuote]
        split at step
        next => cases step; rfl
        next =>
            split at step
            next => cases step; rfl
            next => cases step
    | done =>
        rw [scanUnit] at step
        split at step
        next space =>
            cases step
            rw [if_neg (isSpace_cases space).1]
            rfl
        next => cases step
    | outside depth =>
        rw [scanUnit] at step
        split at step
        next quote =>
            cases step
            rw [if_pos quote]
            rfl
        next notQuote =>
            rw [if_neg notQuote]
            split at step
            next => cases step; rfl
            next =>
                split at step
                next =>
                    cases step
                    exact after_outString depth
                next =>
                    split at step
                    next => cases step
                    next => cases step; rfl

theorem crossed_scan {first second last last' : Scan} {text : Text} (crossed : Crossed first second)
    (scanned : scan first text = some last) (scanned' : scan second text = some last') :
    Crossed last last' := by
  induction text generalizing first second with
  | nil =>
      cases scanned
      cases scanned'
      exact crossed
  | cons c rest ih =>
      rw [scan_cons, Option.bind_eq_some_iff] at scanned scanned'
      obtain ⟨next, step, later⟩ := scanned
      obtain ⟨next', step', later'⟩ := scanned'
      refine ih ?_ later later'
      rcases crossed with ⟨inFirst, outSecond⟩ | ⟨outFirst, inSecond⟩
      · obtain ⟨notBackslash, second'⟩ := outString_step outSecond step'
        have first' := inString_step inFirst step notBackslash
        split at first'
        next quote => exact .inr ⟨first', by rwa [if_pos quote] at second'⟩
        next notQuote => exact .inl ⟨first', by rwa [if_neg notQuote] at second'⟩
      · obtain ⟨notBackslash, first'⟩ := outString_step outFirst step
        have second' := inString_step inSecond step' notBackslash
        split at first'
        next quote => exact .inl ⟨first', by rwa [if_pos quote] at second'⟩
        next notQuote => exact .inr ⟨first', by rwa [if_neg notQuote] at second'⟩

/-- An object starts at a brace. -/
theorem parseValue_object {fuel : Nat} {text rest : Text} {fields : List (Text × Json Number)}
    (read : parseValue fuel text = some (.object fields, rest)) :
    ∃ after, skipSpace text = unit '{' :: after := by
  cases fuel with
  | zero => cases read
  | succ fuel =>
      rw [parseValue] at read
      split at read
      next => cases read
      next c after skipped =>
          by_cases brace : c = unit '{'
          · exact ⟨after, brace ▸ skipped⟩
          rw [if_neg brace] at read
          have notWord : ∀ {spelled : Text} {value : Json Number},
              (∀ fields, value ≠ .object fields) →
                word spelled value (c :: after) ≠ some (.object fields, rest) := by
            intro spelled value notObject isWord
            unfold word at isWord
            split at isWord
            next =>
                cases isWord
                exact notObject fields rfl
            next => cases isWord
          split at read
          next =>
              obtain ⟨_, -, same⟩ := Option.map_eq_some_iff.mp read
              cases same
          next =>
              split at read
              next =>
                  split at read
                  next => cases read
                  next =>
                      split at read
                      next => cases read
                      next =>
                          obtain ⟨_, -, same⟩ := Option.map_eq_some_iff.mp read
                          cases same
              next =>
                  split at read
                  next => exact absurd read (notWord (by simp))
                  next =>
                      split at read
                      next => exact absurd read (notWord (by simp))
                      next =>
                          split at read
                          next => exact absurd read (notWord (by simp))
                          next =>
                              obtain ⟨_, -, same⟩ := Option.map_eq_some_iff.mp read
                              cases same

theorem parse_object_head {text : Text} {fields : List (Text × Json Number)}
    (read : parse text = some (.object fields)) :
    ∃ lead rest, text = lead ++ unit '{' :: rest ∧ AllSpace lead := by
  unfold parse at read
  split at read
  next => cases read
  next value rest isValue =>
      split at read
      next =>
          cases read
          obtain ⟨after, skipped⟩ := parseValue_object isValue
          obtain ⟨lead, split, space⟩ := skipSpace_split text
          exact ⟨lead, after, by rwa [skipped] at split, space⟩
      next => cases read

theorem scan_start {text : Text} (scanned : scan .start text = some .start) : AllSpace text := by
  have never : ∀ {state next : Scan} {c : UInt16}, scanUnit state c = some next →
      next = .start → state = .start ∧ isSpace c = true := by
    intro state next c step isStart
    subst isStart
    cases state with
    | start =>
        rw [scanUnit] at step
        split at step
        next space => exact ⟨rfl, space⟩
        next => split_ifs at step <;> cases step
    | scalar | escaped =>
        rw [scanUnit] at step
        split_ifs at step <;> cases step
    | done =>
        rw [scanUnit] at step
        split_ifs at step <;> cases step
    | outside depth | inside depth =>
        rw [scanUnit] at step
        cases depth <;> split_ifs at step <;> cases step
  have back : ∀ {text : Text} {state : Scan}, scan state text = some .start →
      state = .start ∧ AllSpace text := by
    intro text
    induction text with
    | nil =>
        intro state scanned
        cases scanned
        exact ⟨rfl, List.forall_mem_nil _⟩
    | cons c rest ih =>
        intro state scanned
        rw [scan_cons, Option.bind_eq_some_iff] at scanned
        obtain ⟨next, step, later⟩ := scanned
        obtain ⟨isStart, space⟩ := ih later
        obtain ⟨start, first⟩ := never step isStart
        exact ⟨start, List.forall_mem_cons.mpr ⟨first, space⟩⟩
  exact (back scanned).2

/-- No object stands where a value is cut in two. -/
theorem space_before_object {before after : Text} {value : Json Number}
    (whole : parse (before ++ after) = some value) {fields : List (Text × Json Number)}
    (read : parse after = some (.object fields)) : AllSpace before := by
  obtain ⟨state, scanned, ended⟩ : ∃ state, scan .start (before ++ after) = some state ∧
      (state = .done ∨ state = .scalar) := by
    rcases parse_ended whole with done | ⟨scalar, -⟩
    · exact ⟨_, done, .inl rfl⟩
    · exact ⟨_, scalar, .inr rfl⟩
  rw [scan_append, Option.bind_eq_some_iff] at scanned
  obtain ⟨middle, isMiddle, later⟩ := scanned
  have done := parse_object_done read
  obtain ⟨lead, rest, split, space⟩ := parse_object_head read
  have brace : ¬AllSpace after := fun all =>
    absurd (all (unit '{') (by simp [split])) (by decide)
  cases middle with
  | start => exact scan_start isMiddle
  | done => exact absurd (scan_done later).1 brace
  | scalar =>
      cases lead with
      | nil =>
          rw [split, List.nil_append, scan_cons] at later
          cases later
      | cons c lead =>
          have first := space c List.mem_cons_self
          rw [split, List.cons_append,
            scan_step (show scanUnit .scalar c = some .done by simp [scanUnit, first])] at later
          exact absurd ((scan_done later).1 (unit '{') (by simp)) (by decide)
  | escaped depth =>
      have stuck : ∀ c, isSpace c = true ∨ c = unit '{' → scanUnit (.escaped depth) c = none := by
        rintro c (isSpaceUnit | rfl)
        · simp only [isSpace, Bool.or_eq_true, beq_iff_eq] at isSpaceUnit
          rcases isSpaceUnit with ((rfl | rfl) | rfl) | rfl <;> rfl
        · rfl
      cases lead with
      | nil =>
          rw [split, List.nil_append, scan_cons, stuck _ (.inr rfl)] at later
          cases later
      | cons c lead =>
          rw [split, List.cons_append, scan_cons,
            stuck c (.inl (space c List.mem_cons_self))] at later
          cases later
  | outside depth =>
      obtain ⟨last, scanned, deeper⟩ := deeper_scan (show Deeper depth _ .start from rfl) done
      cases later.symm.trans scanned
      cases deeper
      rcases ended with same | same <;> cases same
  | inside depth =>
      have crossed := crossed_scan (.inl ⟨rfl, rfl⟩) later done
      rcases ended with rfl | rfl <;> simp [Crossed, Scan.inString] at crossed

/-! ## White space around a value -/

/-- A read whose text had more behind it. -/
def trailing {α : Type} (trail : Text) (read : Option (α × Text)) : Option (α × Text) :=
  read.map fun (value, rest) => (value, rest ++ trail)

section Trail

variable {trail : Text}

theorem skipSpace_trail (space : AllSpace trail) {text after : Text} {c : UInt16}
    (skipped : skipSpace (text ++ trail) = c :: after) :
    ∃ rest, after = rest ++ trail ∧ skipSpace text = c :: rest ∧ rest.length < text.length := by
  induction text with
  | nil =>
      rw [List.nil_append, skipSpace_nil.mpr space] at skipped
      cases skipped
  | cons d text ih =>
      rw [List.cons_append, skipSpace] at skipped
      rw [skipSpace]
      split at skipped
      next isSpaceUnit =>
          obtain ⟨rest, same, found, shorter⟩ := ih skipped
          exact ⟨rest, same, by rw [if_pos isSpaceUnit, found], Nat.lt_succ_of_lt shorter⟩
      next notSpace =>
          cases skipped
          exact ⟨text, rfl, if_neg notSpace, Nat.lt_succ_self _⟩

theorem isSpace_digit {c : UInt16} (space : isSpace c = true) :
    Text.isDigit c = false ∧ hexValue? c = none ∧ unescape? c = none ∧ c ≠ unit 'u' ∧
      c ≠ unit '.' ∧ c ≠ unit 'e' ∧ c ≠ unit 'E' ∧ c ≠ unit '-' ∧ c ≠ unit '+' ∧ c ≠ unit '0' := by
  simp only [isSpace, Bool.or_eq_true, beq_iff_eq] at space
  rcases space with ((rfl | rfl) | rfl) | rfl <;> decide

theorem parseString_blank (space : AllSpace trail) : parseString trail = none := by
  induction trail with
  | nil => rfl
  | cons c rest ih =>
      obtain ⟨first, later⟩ := List.forall_mem_cons.mp space
      obtain ⟨notQuote, -, -, notBackslash, -⟩ := isSpace_cases first
      rw [parseString.eq_def]
      simp only [if_neg notQuote, if_neg notBackslash, ih later]
      split <;> rfl

theorem trailing_prepend (c : UInt16) (read : Option (Text × Text)) :
    trailing trail (prepend c read) = prepend c (trailing trail read) := by
  cases read <;> rfl

theorem parseString_trail (space : AllSpace trail) (text : Text) :
    parseString (text ++ trail) = trailing trail (parseString text) := by
  induction text using parseString.induct with
  | case1 => exact parseString_blank space
  | case2 after =>
      rw [List.cons_append, parseString.eq_def, parseString.eq_def (unit '"' :: after)]
      simp [trailing]
  | case3 notQuote =>
      rw [List.singleton_append, parseString.eq_def, parseString.eq_def [unit '\\']]
      cases trail with
      | nil => simp [trailing, notQuote]
      | cons c rest =>
          obtain ⟨-, -, noEscape, notU, -⟩ := isSpace_digit (space c List.mem_cons_self)
          simp [trailing, notQuote, notU, noEscape]
  | case4 a b c d after u hex notQuote ih =>
      simp only [List.cons_append]
      rw [parseString.eq_def, parseString.eq_def (unit '\\' :: unit 'u' :: a :: b :: c :: d :: after)]
      simp [notQuote, hex, ih, trailing_prepend]
  | case5 a b c d after hex notQuote =>
      simp only [List.cons_append]
      rw [parseString.eq_def, parseString.eq_def (unit '\\' :: unit 'u' :: a :: b :: c :: d :: after)]
      simp [notQuote, hex, trailing]
  | case6 after short notQuote =>
      simp only [List.cons_append]
      rw [parseString.eq_def, parseString.eq_def (unit '\\' :: unit 'u' :: after)]
      simp only [notQuote, if_true, if_false]
      split
      next a b c d rest isSplit =>
          have isLast : (after ++ trail)[3]? = some d := by rw [isSplit]; rfl
          have few : after.length ≤ 3 := by
            by_contra many
            rcases after with _ | ⟨a, _ | ⟨b, _ | ⟨c, _ | ⟨d, rest⟩⟩⟩⟩
            · simp at many
            · simp at many
            · simp at many
            · simp at many
            · exact short a b c d rest rfl
          rw [List.getElem?_append_right few] at isLast
          have noDigit := (isSpace_digit (space d (List.mem_of_getElem? isLast))).2.1
          have noUnit : hexUnit? a b c d = none := by
            unfold hexUnit?
            cases hexValue? a <;> cases hexValue? b <;> cases hexValue? c <;> simp [noDigit]
          rw [noUnit]
          rfl
      next => rfl
  | case7 e after notHex c stands notQuote ih =>
      simp only [List.cons_append]
      rw [parseString.eq_def, parseString.eq_def (unit '\\' :: e :: after)]
      simp [notQuote, notHex, stands, ih, trailing_prepend]
  | case8 e after notHex stands notQuote =>
      simp only [List.cons_append]
      rw [parseString.eq_def, parseString.eq_def (unit '\\' :: e :: after)]
      simp [notQuote, notHex, stands, trailing]
  | case9 c after notQuote notBackslash control =>
      rw [List.cons_append, parseString.eq_def, parseString.eq_def (c :: after)]
      simp [notQuote, notBackslash, control, trailing]
  | case10 c after notQuote notBackslash notControl ih =>
      rw [List.cons_append, parseString.eq_def, parseString.eq_def (c :: after)]
      simp [notQuote, notBackslash, notControl, ih, trailing_prepend]

theorem spanDigits_trail (space : AllSpace trail) (text : Text) :
    spanDigits (text ++ trail) = ((spanDigits text).1, (spanDigits text).2 ++ trail) := by
  induction text with
  | nil =>
      cases trail with
      | nil => rfl
      | cons c rest =>
          have noDigit := (isSpace_digit (space c List.mem_cons_self)).1
          simp [spanDigits, noDigit]
  | cons c text ih =>
      rw [List.cons_append, spanDigits, spanDigits, ih]
      split <;> rfl

theorem parseWhole_trail (space : AllSpace trail) (text : Text) :
    parseWhole (text ++ trail) = trailing trail (parseWhole text) := by
  cases text with
  | nil =>
      cases trail with
      | nil => rfl
      | cons c rest =>
          obtain ⟨noDigit, -, -, -, -, -, -, -, -, notZero⟩ :=
            isSpace_digit (space c List.mem_cons_self)
          simp [parseWhole, trailing, noDigit, notZero]
  | cons c text =>
      have spanned := spanDigits_trail space (c :: text)
      rw [List.cons_append] at spanned ⊢
      rw [parseWhole, parseWhole, spanned]
      split_ifs <;> rfl

theorem parseFraction_trail (space : AllSpace trail) (text : Text) :
    parseFraction (text ++ trail) = trailing trail (parseFraction text) := by
  cases text with
  | nil =>
      cases trail with
      | nil => rfl
      | cons c rest =>
          have notDot := (isSpace_digit (space c List.mem_cons_self)).2.2.2.2.1
          simp [parseFraction, trailing, notDot]
  | cons c text =>
      rw [List.cons_append, parseFraction, parseFraction, spanDigits_trail space]
      dsimp only
      split_ifs <;> rfl

theorem parseSign_trail (space : AllSpace trail) (text : Text) :
    parseSign (text ++ trail) = ((parseSign text).1, (parseSign text).2 ++ trail) := by
  cases text with
  | nil =>
      cases trail with
      | nil => rfl
      | cons c rest =>
          obtain ⟨-, -, -, -, -, -, -, notMinus, notPlus, -⟩ :=
            isSpace_digit (space c List.mem_cons_self)
          simp [parseSign, notMinus, notPlus]
  | cons c text =>
      rw [List.cons_append, parseSign, parseSign]
      split_ifs <;> rfl

theorem parseExponent_trail (space : AllSpace trail) (text : Text) :
    parseExponent (text ++ trail) = trailing trail (parseExponent text) := by
  cases text with
  | nil =>
      cases trail with
      | nil => rfl
      | cons c rest =>
          obtain ⟨-, -, -, -, -, notE, notE', -⟩ := isSpace_digit (space c List.mem_cons_self)
          simp [parseExponent, trailing, notE, notE']
  | cons c text =>
      rw [List.cons_append, parseExponent, parseExponent, parseSign_trail space]
      dsimp only
      rw [spanDigits_trail space]
      dsimp only
      split_ifs <;> rfl

theorem parseMagnitude_trail (space : AllSpace trail) (negative : Bool) (text : Text) :
    parseMagnitude negative (text ++ trail) = trailing trail (parseMagnitude negative text) := by
  simp only [parseMagnitude, parseWhole_trail space, Option.pure_def, Option.bind_eq_bind]
  cases parseWhole text with
  | none => rfl
  | some whole =>
      simp only [trailing, Option.map_some, Option.bind_some, parseFraction_trail space]
      cases parseFraction whole.2 with
      | none => rfl
      | some fraction =>
          simp only [trailing, Option.map_some, Option.bind_some, parseExponent_trail space]
          cases parseExponent fraction.2 <;> rfl

theorem parseNumber_trail (space : AllSpace trail) (text : Text) :
    parseNumber (text ++ trail) = trailing trail (parseNumber text) := by
  cases text with
  | nil =>
      cases trail with
      | nil => rfl
      | cons c rest =>
          have notMinus := (isSpace_digit (space c List.mem_cons_self)).2.2.2.2.2.2.2.1
          have nothing := parseMagnitude_trail space false []
          rw [List.nil_append] at nothing ⊢
          have unsigned : parseNumber (c :: rest) = parseMagnitude false (c :: rest) := by
            simp [parseNumber, notMinus]
          rw [unsigned, nothing]
          rfl
  | cons c text =>
      have magnitude := parseMagnitude_trail space false (c :: text)
      rw [List.cons_append] at magnitude ⊢
      rw [parseNumber, parseNumber, parseMagnitude_trail space, magnitude]
      split_ifs <;> rfl

/-- A read of a text with white space behind it is one of the text alone: it takes a unit
at least, and needs fuel for what it takes and `spare` more. -/
def ReadsAlone {α : Type} (read : Nat → Text → Option (α × Text)) (spare : Nat) (trail text : Text)
    (value : α) (after : Text) : Prop :=
  ∃ rest, after = rest ++ trail ∧ rest.length < text.length ∧
    ∀ fuel, 2 * (text.length - rest.length) + spare ≤ fuel → read fuel text = some (value, rest)

theorem parseString_alone (space : AllSpace trail) {text string after : Text}
    (read : parseString (text ++ trail) = some (string, after)) :
    ∃ rest, after = rest ++ trail ∧ rest.length < text.length ∧
      parseString text = some (string, rest) := by
  rw [parseString_trail space] at read
  obtain ⟨⟨string', rest⟩, isString, same⟩ := Option.map_eq_some_iff.mp read
  cases same
  obtain ⟨taken, split, some, -⟩ := parseString_scan isString 0
  refine ⟨rest, rfl, ?_, isString⟩
  rw [split, List.length_append]
  have := List.length_pos_iff.mpr some
  omega

theorem parseNumber_alone (space : AllSpace trail) {text after : Text} {number : Number}
    (read : parseNumber (text ++ trail) = some (number, after)) :
    ∃ rest, after = rest ++ trail ∧ rest.length < text.length ∧
      parseNumber text = some (number, rest) := by
  rw [parseNumber_trail space] at read
  obtain ⟨⟨number', rest⟩, isNumber, same⟩ := Option.map_eq_some_iff.mp read
  cases same
  obtain ⟨taken, split, -, some⟩ := parseNumber_plain isNumber
  refine ⟨rest, rfl, ?_, isNumber⟩
  rw [split, List.length_append]
  have := List.length_pos_iff.mpr some
  omega

theorem word_alone (space : AllSpace trail) {spelled text after : Text} {value read : Json Number}
    (plain : AllPlain spelled) (nonempty : spelled ≠ [])
    (isWord : word spelled value (text ++ trail) = some (read, after)) :
    ∃ rest, after = rest ++ trail ∧ rest.length < text.length ∧
      word spelled value text = some (read, rest) := by
  unfold word at isWord
  split at isWord
  next starts =>
      cases isWord
      have within : spelled <+: text := by
        obtain ⟨rest, split⟩ := List.isPrefixOf_iff_prefix.mp starts
        rcases List.append_eq_append_iff.mp split with ⟨rest', within, -⟩ | ⟨more, split', isMore⟩
        · exact ⟨rest', within.symm⟩
        · cases more with
          | nil => exact ⟨[], by simp [split']⟩
          | cons c more =>
              have first := space c (by simp [isMore])
              have isPlainUnit := plain c (by simp [split'])
              rw [(isSpace_cases first).2.2.2.2] at isPlainUnit
              cases isPlainUnit
      obtain ⟨rest, rfl⟩ := within
      refine ⟨rest, by simp, by simpa using List.length_pos_iff.mpr nonempty, ?_⟩
      have starts' : (spelled ++ rest).startsWith spelled = true :=
        List.isPrefixOf_iff_prefix.mpr (List.prefix_append _ _)
      rw [word, if_pos starts', List.drop_left]
  next => cases isWord

theorem parse_alone (space : AllSpace trail) (fuel : Nat) :
    (∀ {text value after}, parseValue fuel (text ++ trail) = some (value, after) →
      ReadsAlone parseValue 0 trail text value after) ∧
    (∀ {text items after}, parseItems fuel (text ++ trail) = some (items, after) →
      ReadsAlone parseItems 1 trail text items after) ∧
    ∀ {text fields after}, parseFields fuel (text ++ trail) = some (fields, after) →
      ReadsAlone parseFields 1 trail text fields after := by
  induction fuel with
  | zero => exact ⟨nofun, nofun, nofun⟩
  | succ fuel ih =>
      obtain ⟨valueAlone, itemsAlone, fieldsAlone⟩ := ih
      refine ⟨?_, ?_, ?_⟩
      · intro text value after read
        rw [parseValue] at read
        suffices alone : ∃ rest, after = rest ++ trail ∧ rest.length < text.length ∧
            ∀ fuel, 2 * (text.length - rest.length) ≤ fuel + 1 →
              parseValue (fuel + 1) text = some (value, rest) by
          obtain ⟨rest, same, shorter, found⟩ := alone
          refine ⟨rest, same, shorter, fun fuel enough => ?_⟩
          obtain ⟨fuel', rfl⟩ : ∃ fuel', fuel = fuel' + 1 := ⟨fuel - 1, by omega⟩
          exact found fuel' (by omega)
        split at read
        next => cases read
        next c behind skipped =>
            obtain ⟨rest, rfl, skipped', shorter⟩ := skipSpace_trail space skipped
            have length : (c :: rest).length = rest.length + 1 := rfl
            split at read
            next quote =>
                obtain ⟨⟨string, after'⟩, isString, same⟩ := Option.map_eq_some_iff.mp read
                cases same
                obtain ⟨rest', rfl, shorter', found⟩ := parseString_alone space isString
                refine ⟨rest', rfl, by omega, fun fuel _ => ?_⟩
                simp only [parseValue, skipped', if_pos quote, found]
                rfl
            next notQuote =>
                split at read
                next bracket =>
                    split at read
                    next => cases read
                    next d behind' inner =>
                        obtain ⟨rest', rfl, inner', shorter'⟩ := skipSpace_trail space inner
                        split at read
                        next closes =>
                            cases read
                            refine ⟨rest', rfl, by omega, fun fuel _ => ?_⟩
                            simp only [parseValue, skipped', if_neg notQuote, if_pos bracket, inner',
                              if_pos closes]
                        next notClose =>
                            obtain ⟨⟨items, after'⟩, isItems, same⟩ :=
                              Option.map_eq_some_iff.mp read
                            cases same
                            obtain ⟨rest'', rfl, shorter'', found⟩ := itemsAlone isItems
                            refine ⟨rest'', rfl, by omega, fun fuel enough => ?_⟩
                            simp only [parseValue, skipped', if_neg notQuote, if_pos bracket, inner',
                              if_neg notClose, found fuel (by omega)]
                            rfl
                next notBracket =>
                    split at read
                    next brace =>
                        split at read
                        next => cases read
                        next d behind' inner =>
                            obtain ⟨rest', rfl, inner', shorter'⟩ := skipSpace_trail space inner
                            split at read
                            next closes =>
                                cases read
                                refine ⟨rest', rfl, by omega, fun fuel _ => ?_⟩
                                simp only [parseValue, skipped', if_neg notQuote, if_neg notBracket,
                                  if_pos brace, inner', if_pos closes]
                            next notClose =>
                                obtain ⟨⟨fields, after'⟩, isFields, same⟩ :=
                                  Option.map_eq_some_iff.mp read
                                cases same
                                obtain ⟨rest'', rfl, shorter'', found⟩ := fieldsAlone isFields
                                refine ⟨rest'', rfl, by omega, fun fuel enough => ?_⟩
                                simp only [parseValue, skipped', if_neg notQuote, if_neg notBracket,
                                  if_pos brace, inner', if_neg notClose, found fuel (by omega)]
                                rfl
                    next notBrace =>
                        rw [← List.cons_append] at read
                        split at read
                        next isNull =>
                            obtain ⟨rest', rfl, shorter', found⟩ :=
                              word_alone space (by decide) (by decide) read
                            refine ⟨rest', rfl, by omega, fun fuel _ => ?_⟩
                            simp only [parseValue, skipped', if_neg notQuote, if_neg notBracket,
                              if_neg notBrace, if_pos isNull, found]
                        next notNull =>
                            split at read
                            next isTrue =>
                                obtain ⟨rest', rfl, shorter', found⟩ :=
                                  word_alone space (by decide) (by decide) read
                                refine ⟨rest', rfl, by omega, fun fuel _ => ?_⟩
                                simp only [parseValue, skipped', if_neg notQuote, if_neg notBracket,
                                  if_neg notBrace, if_neg notNull, if_pos isTrue, found]
                            next notTrue =>
                                split at read
                                next isFalse =>
                                    obtain ⟨rest', rfl, shorter', found⟩ :=
                                      word_alone space (by decide) (by decide) read
                                    refine ⟨rest', rfl, by omega, fun fuel _ => ?_⟩
                                    simp only [parseValue, skipped', if_neg notQuote,
                                      if_neg notBracket, if_neg notBrace, if_neg notNull,
                                      if_neg notTrue, if_pos isFalse, found]
                                next notFalse =>
                                    obtain ⟨⟨number, after'⟩, isNumber, same⟩ :=
                                      Option.map_eq_some_iff.mp read
                                    cases same
                                    obtain ⟨rest', rfl, shorter', found⟩ :=
                                      parseNumber_alone space isNumber
                                    refine ⟨rest', rfl, by omega, fun fuel _ => ?_⟩
                                    simp only [parseValue, skipped', if_neg notQuote,
                                      if_neg notBracket, if_neg notBrace, if_neg notNull,
                                      if_neg notTrue, if_neg notFalse, found]
                                    rfl
      · intro text items after read
        rw [parseItems] at read
        split at read
        next => cases read
        next item after' first =>
            obtain ⟨rest, rfl, shorter, found⟩ := valueAlone first
            split at read
            next => cases read
            next d after'' skipped =>
                obtain ⟨rest', rfl, skipped', shorter'⟩ := skipSpace_trail space skipped
                split at read
                next closes =>
                    cases read
                    refine ⟨rest', rfl, by omega, fun fuel enough => ?_⟩
                    obtain ⟨fuel', rfl⟩ : ∃ fuel', fuel = fuel' + 1 := ⟨fuel - 1, by omega⟩
                    rw [parseItems, found fuel' (by omega)]
                    simp [skipped', closes]
                next notClose =>
                    split at read
                    next comma =>
                        obtain ⟨⟨items', after₃⟩, isItems, same⟩ := Option.map_eq_some_iff.mp read
                        cases same
                        obtain ⟨rest'', rfl, shorter'', found'⟩ := itemsAlone isItems
                        refine ⟨rest'', rfl, by omega, fun fuel enough => ?_⟩
                        obtain ⟨fuel', rfl⟩ : ∃ fuel', fuel = fuel' + 1 := ⟨fuel - 1, by omega⟩
                        rw [parseItems, found fuel' (by omega)]
                        simp only [skipped', if_neg notClose, if_pos comma, found' fuel' (by omega)]
                        rfl
                    next => cases read
      · intro text fields after read
        rw [parseFields] at read
        split at read
        next => cases read
        next c behind skipped =>
            obtain ⟨rest, rfl, skipped', shorter⟩ := skipSpace_trail space skipped
            split at read
            next => cases read
            next quote =>
                split at read
                next => cases read
                next key behind' isKey =>
                    obtain ⟨rest', rfl, shorter', foundKey⟩ := parseString_alone space isKey
                    split at read
                    next => cases read
                    next d behind'' skippedKey =>
                        obtain ⟨rest₂, rfl, skippedKey', shorter₂⟩ :=
                          skipSpace_trail space skippedKey
                        split at read
                        next => cases read
                        next colon =>
                            split at read
                            next => cases read
                            next value behind₃ isValue =>
                                obtain ⟨rest₃, rfl, shorter₃, found⟩ := valueAlone isValue
                                split at read
                                next => cases read
                                next e behind₄ skippedValue =>
                                    obtain ⟨rest₄, rfl, skippedValue', shorter₄⟩ :=
                                      skipSpace_trail space skippedValue
                                    split at read
                                    next closes =>
                                        cases read
                                        refine ⟨rest₄, rfl, by omega, fun fuel enough => ?_⟩
                                        obtain ⟨fuel', rfl⟩ : ∃ fuel', fuel = fuel' + 1 :=
                                          ⟨fuel - 1, by omega⟩
                                        simp only [parseFields, skipped', if_neg quote, foundKey,
                                          skippedKey', if_neg colon, found fuel' (by omega),
                                          skippedValue', if_pos closes]
                                    next notClose =>
                                        split at read
                                        next comma =>
                                            obtain ⟨⟨fields', after₅⟩, isFields, same⟩ :=
                                              Option.map_eq_some_iff.mp read
                                            cases same
                                            obtain ⟨rest₅, rfl, shorter₅, found'⟩ :=
                                              fieldsAlone isFields
                                            refine ⟨rest₅, rfl, by omega, fun fuel enough => ?_⟩
                                            obtain ⟨fuel', rfl⟩ : ∃ fuel', fuel = fuel' + 1 :=
                                              ⟨fuel - 1, by omega⟩
                                            simp only [parseFields, skipped', if_neg quote, foundKey,
                                              skippedKey', if_neg colon, found fuel' (by omega),
                                              skippedValue', if_neg notClose, if_pos comma,
                                              found' fuel' (by omega)]
                                            rfl
                                        next => cases read

theorem parse_some {text : Text} {value : Json Number} {fuel : Nat} {rest : Text}
    (read : parseValue fuel text = some (value, rest)) (blank : AllSpace rest) :
    parse text = some value := by
  have read' : parseValue fuel (text ++ []) = some (value, rest) := by rwa [List.append_nil]
  obtain ⟨rest', same, -, found⟩ := (@parse_alone [] nofun fuel).1 read'
  rw [List.append_nil] at same
  subst same
  rw [parse, found _ (by omega)]
  exact if_pos (skipSpace_nil.mpr blank)

theorem parse_inversion {text : Text} {value : Json Number} (read : parse text = some value) :
    ∃ fuel rest, parseValue fuel text = some (value, rest) ∧ AllSpace rest := by
  unfold parse at read
  split at read
  next => cases read
  next value' rest isValue =>
      split at read
      next blank =>
          cases read
          exact ⟨_, rest, isValue, skipSpace_nil.mp blank⟩
      next => cases read

/-- White space behind a value is not part of it. -/
theorem parse_trail (space : AllSpace trail) {text : Text} {value : Json Number}
    (read : parse (text ++ trail) = some value) : parse text = some value := by
  obtain ⟨fuel, after, isValue, blank⟩ := parse_inversion read
  obtain ⟨rest, rfl, -, found⟩ := (parse_alone space fuel).1 isValue
  exact parse_some (found _ (Nat.le_refl _)) fun c member =>
    blank c (List.mem_append_left _ member)

end Trail

/-- Nor is white space in front of one. -/
theorem parse_lead {lead text : Text} (space : AllSpace lead) {value : Json Number}
    (read : parse (lead ++ text) = some value) : parse text = some value := by
  obtain ⟨fuel, rest, isValue, blank⟩ := parse_inversion read
  refine @parse_some _ _ fuel _ ?_ blank
  cases fuel with
  | zero => cases isValue
  | succ fuel =>
      rw [parseValue, skipSpace_space space] at isValue
      rw [parseValue]
      exact isValue

/-- Nothing but white space is no value. -/
theorem parse_blank {text : Text} (space : AllSpace text) : parse text = none := by
  rw [parse, parseValue, skipSpace_nil.mpr space]

end Json

end Ccrc.Library
