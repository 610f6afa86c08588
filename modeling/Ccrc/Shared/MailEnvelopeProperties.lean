import Ccrc.Library.JsonProperties
import Ccrc.Library.Lists
import Ccrc.Library.TextProperties
import Ccrc.Shared.MailEnvelope

/-! What each reader of an envelope reads of a line that was written for it, and what an
envelope that was read cannot hold. -/

set_option autoImplicit false

namespace Ccrc.Shared

open Library
open Library.Text (lit unit)

namespace MailEnvelope

/-! ## Lines -/

@[simp] theorem isPlain_append (first second : Text) :
    isPlain (first ++ second) = (isPlain first && isPlain second) := List.all_append

theorem isPlain_of_mem {text : Text} (bounds : ∀ c ∈ text, 0x2D ≤ c.toNat ∧ c.toNat ≤ 0x7A) :
    isPlain text = true := by
  rw [isPlain, List.all_eq_true]
  intro c member
  obtain ⟨low, high⟩ := bounds c member
  have other : ∀ terminator : UInt16, terminator.toNat < 0x2D ∨ 0x7A < terminator.toNat →
      (c == terminator) = false := by
    intro terminator outside
    rw [beq_eq_false_iff_ne]
    rintro rfl
    omega
  simp [isLineTerminator, newline, other]

theorem newline_not_mem {text : Text} (plain : isPlain text = true) : newline ∉ text := by
  intro member
  have bad := List.all_eq_true.mp plain newline member
  cases bad

theorem afterLead_append (lead rest : Text) : afterLead lead (lead ++ rest) = some rest := by
  rw [afterLead, Text.startsWith, if_pos (List.isPrefixOf_iff_prefix.mpr (List.prefix_append _ _)),
    List.drop_left]

theorem afterLead_some {lead line rest : Text} (reads : afterLead lead line = some rest) :
    line = lead ++ rest := by
  unfold afterLead at reads
  split at reads
  next leads =>
      cases reads
      obtain ⟨rest, rfl⟩ := List.isPrefixOf_iff_prefix.mp leads
      rw [List.drop_left]
  next => cases reads

theorem readDigits_ofNat (number : Nat) : readDigits (Text.ofNat number) = some number := by
  have some' : Text.ofNat number ≠ [] := by
    simp [Text.ofNat, Nat.toDigits_ne_nil]
  rw [readDigits, if_pos ⟨some', List.all_eq_true.mpr (Json.ofNat_isDigit number)⟩,
    Json.digitsValue_ofNat]

theorem ofNat_plain (number : Nat) : isPlain (Text.ofNat number) = true := by
  refine isPlain_of_mem fun c member => ?_
  have digit := Json.ofNat_isDigit number c member
  simp only [Text.isDigit, Bool.and_eq_true, decide_eq_true_eq, UInt16.le_iff_toNat_le] at digit
  have zero : (unit '0').toNat = 0x30 := rfl
  have nine : (unit '9').toNat = 0x39 := rfl
  omega

/-- A numeral is the digits in front of a text that goes on with another unit. -/
theorem digits_append {number : Nat} {rest : Text}
    (stops : rest.head?.all fun c => !Text.isDigit c) :
    (Text.ofNat number ++ rest).takeWhile Text.isDigit = Text.ofNat number ∧
      (Text.ofNat number ++ rest).dropWhile Text.isDigit = rest := by
  have all := Json.ofNat_isDigit number
  rw [List.takeWhile_append_of_pos all, List.dropWhile_append_of_pos all]
  cases rest with
  | nil => exact ⟨List.append_nil _, rfl⟩
  | cons c rest =>
      have other : Text.isDigit c = false := by simpa using stops
      simp [other]

theorem readNonempty_append {lead rest : Text} (some' : rest ≠ []) (plain : isPlain rest = true) :
    readNonempty lead (lead ++ rest) = some rest := by
  rw [readNonempty, afterLead_append, Option.filter_some, plain]
  cases rest with
  | nil => exact absurd rfl some'
  | cons c rest => rfl

/-! ## The run -/

/-- The wave of a run line as it is written. -/
def waveText : Option Nat → Option Nat → Text
  | none, _ => []
  | some wave, none => lit " wave " ++ Text.ofNat wave
  | some wave, some waveOf => lit " wave " ++ Text.ofNat wave ++ (lit "/" ++ Text.ofNat waveOf)

theorem readWave_text {wave waveOf : Option Nat}
    (totalled : waveOf.isSome = true → wave.isSome = true) :
    readWave (waveText wave waveOf) = some (wave.map Int.ofNat, waveOf.map Int.ofNat) := by
  cases wave with
  | none =>
      cases waveOf with
      | none => rfl
      | some waveOf => cases totalled rfl
  | some wave =>
      cases waveOf with
      | none =>
          have digits := @digits_append wave [] rfl
          rw [List.append_nil] at digits
          have apart : lit " wave " ++ Text.ofNat wave ≠ [] := by simp [lit]
          rw [waveText, readWave, if_neg apart, afterLead_append, Option.bind_some, digits.1,
            digits.2, readDigits_ofNat]
          rfl
      | some waveOf =>
          obtain ⟨taken, dropped⟩ := @digits_append wave (lit "/" ++ Text.ofNat waveOf) rfl
          have apart : lit " wave " ++ (Text.ofNat wave ++ (lit "/" ++ Text.ofNat waveOf)) ≠ [] := by
            simp [lit]
          rw [waveText, List.append_assoc, readWave, if_neg apart, afterLead_append,
            Option.bind_some, taken, dropped, readDigits_ofNat]
          show (readDigits (Text.ofNat waveOf)).map _ = _
          rw [readDigits_ofNat]
          rfl

theorem waveText_plain (wave waveOf : Option Nat) : isPlain (waveText wave waveOf) = true := by
  have lead : isPlain (lit " wave ") = true := by decide
  have slash : isPlain (lit "/") = true := by decide
  cases wave with
  | none => rfl
  | some wave =>
      cases waveOf with
      | none => rw [waveText, isPlain_append, lead, ofNat_plain, Bool.and_self]
      | some waveOf => simp only [waveText, isPlain_append, lead, slash, ofNat_plain, Bool.and_self]

theorem readWave_cons {c : UInt16} {rest : Text} (other : c ≠ unit ' ') :
    readWave (c :: rest) = none := by
  have apart : Text.startsWith (c :: rest) (lit " wave ") = false := by
    have head : (unit ' ' == c) = false := beq_eq_false_iff_ne.mpr (Ne.symm other)
    show ((unit ' ' == c) && _) = false
    rw [head, Bool.false_and]
  rw [readWave, if_neg (List.cons_ne_nil _ _), afterLead, apart]
  rfl

/-- The shortest program is the whole of one without a space. -/
theorem readProgram_append {slug suffix : Text} {wave waveOf : Option Int}
    (reads : readWave suffix = some (wave, waveOf))
    (solid : ∀ c ∈ slug, c ≠ unit ' ' ∧ isLineTerminator c = false) (taken : Text)
    (some' : taken ++ slug ≠ []) :
    readProgram taken (slug ++ suffix) = some (taken ++ slug, wave, waveOf) := by
  induction slug generalizing taken with
  | nil =>
      rw [List.append_nil] at some'
      rw [List.nil_append, List.append_nil]
      cases suffix with
      | nil =>
          cases reads
          rw [readProgram, if_neg some']
      | cons c rest => rw [readProgram, if_neg some', reads]
  | cons c slug ih =>
      obtain ⟨apart, solid'⟩ := List.forall_mem_cons.mp solid
      rw [List.cons_append, readProgram, readWave_cons apart.1, ite_self, apart.2,
        List.append_cons taken c slug]
      exact ih solid' (taken ++ [c]) (by simp)

/-- The inner text of a run line's parentheses. -/
theorem readParens_append {inner : Text} (some' : inner ≠ []) (plain : isPlain inner = true) :
    readParens (lit " (" ++ inner ++ lit ")") = some inner := by
  have close : lit ")" = [unit ')'] := rfl
  have isEmpty : inner.isEmpty = false := by simpa using some'
  rw [readParens, List.append_assoc, afterLead_append, Option.bind_some, close,
    List.getLast?_concat, if_pos rfl, List.dropLast_concat, Option.filter_some, plain, isEmpty]
  rfl

theorem readRun_alone (runId : Nat) :
    readRun (lit "run: " ++ Text.ofNat runId) = some ⟨some runId, none, none, none⟩ := by
  have digits := @digits_append runId [] rfl
  rw [List.append_nil] at digits
  rw [readRun, afterLead_append, Option.bind_some, digits.1, digits.2, readDigits_ofNat]

theorem readRun_program {runId : Nat} {program : Text} {wave waveOf : Option Nat}
    (some' : program ≠ []) (bounds : ∀ c ∈ program, 0x2D ≤ c.toNat ∧ c.toNat ≤ 0x7A)
    (totalled : waveOf.isSome = true → wave.isSome = true) :
    readRun (lit "run: " ++ (Text.ofNat runId ++
        (lit " (" ++ (lit "program:" ++ (program ++ waveText wave waveOf)) ++ lit ")"))) =
      some ⟨some runId, some program, wave.map Int.ofNat, waveOf.map Int.ofNat⟩ := by
  obtain ⟨taken, dropped⟩ := @digits_append runId
    (lit " (" ++ (lit "program:" ++ (program ++ waveText wave waveOf)) ++ lit ")") rfl
  have plain : isPlain (lit "program:" ++ (program ++ waveText wave waveOf)) = true := by
    have lead : isPlain (lit "program:") = true := by decide
    rw [isPlain_append, isPlain_append, lead, isPlain_of_mem bounds, waveText_plain]
    rfl
  have solid : ∀ c ∈ program, c ≠ unit ' ' ∧ isLineTerminator c = false := by
    intro c member
    refine ⟨?_, by simpa using List.all_eq_true.mp (isPlain_of_mem bounds) c member⟩
    rintro rfl
    have low := (bounds _ member).1
    revert low
    decide
  have parens := @readParens_append (lit "program:" ++ (program ++ waveText wave waveOf))
    (by simp [lit]) plain
  have program' := readProgram_append (readWave_text totalled) solid [] (by simpa using some')
  rw [readRun, afterLead_append, Option.bind_some, taken, dropped, readDigits_ofNat]
  have open' : ∃ c rest, lit " (" ++ (lit "program:" ++ (program ++ waveText wave waveOf)) ++
      lit ")" = c :: rest := ⟨_, _, rfl⟩
  obtain ⟨c, rest, isCons⟩ := open'
  rw [isCons]
  dsimp only
  rw [← isCons, parens, Option.bind_some, afterLead_append, Option.bind_some, program']
  rfl

/-! ## The walk -/

section Walk

variable {line : Nat} {rest : List Text} {text : Text}

theorem readLine_ok {α : Type} {read : Text → Option α} {value : α}
    (reads : read text = some value) :
    readLine read ⟨line, text :: rest⟩ = .ok (value, ⟨line + 1, rest⟩) := by
  rw [readLine, Cursor.current, List.headD_cons, reads]
  rfl

theorem readRunLine_none (apart : text.startsWith (lit "run:") = false) :
    readRunLine ⟨line, text :: rest⟩ = .ok (noRun, ⟨line, text :: rest⟩) := by
  rw [readRunLine, Cursor.current, List.headD_cons, apart]
  rfl

theorem readRunLine_some {run : RunFields} (reads : readRun (lit "run: " ++ text) = some run) :
    readRunLine ⟨line, (lit "run: " ++ text) :: rest⟩ = .ok (run, ⟨line + 1, rest⟩) := by
  have leads : Text.startsWith (lit "run: " ++ text) (lit "run:") = true := rfl
  rw [readRunLine, Cursor.current, List.headD_cons, if_pos leads, readLine_ok reads]

theorem indented_append {lines : List Text}
    (all : ∀ line ∈ lines, Text.startsWith line indent = true)
    (apart : text.startsWith indent = false) :
    Cursor.indented ⟨line, lines ++ text :: rest⟩ = lines := by
  rw [Cursor.indented, List.takeWhile_append_of_pos all, List.takeWhile_cons_of_neg (by simp [apart]),
    List.append_nil]

theorem readArtifacts_none (apart : text ≠ lit "artifacts:") :
    readArtifacts ⟨line, text :: rest⟩ = .ok ([], ⟨line, text :: rest⟩) := by
  rw [readArtifacts, Cursor.current, List.headD_cons, if_neg apart]

theorem readArtifacts_some {paths : List Text} (some' : paths ≠ [])
    (apart : text.startsWith indent = false) :
    readArtifacts ⟨line, lit "artifacts:" :: (paths.map (indent ++ ·) ++ text :: rest)⟩ =
      .ok (paths, ⟨line + 1 + paths.length, text :: rest⟩) := by
  have marked : Cursor.skip ⟨line, lit "artifacts:" :: (paths.map (indent ++ ·) ++ text :: rest)⟩ 1 =
      ⟨line + 1, paths.map (indent ++ ·) ++ text :: rest⟩ := rfl
  have read : (paths.map (indent ++ ·)).map (·.drop indent.length) = paths := by
    simp [Function.comp_def]
  have all : ∀ path ∈ paths.map (indent ++ ·), Text.startsWith path indent = true := by
    intro path member
    obtain ⟨path, -, rfl⟩ := List.mem_map.mp member
    exact List.isPrefixOf_iff_prefix.mpr (List.prefix_append _ _)
  rw [readArtifacts, Cursor.current, List.headD_cons, if_pos rfl, marked, indented_append all apart]
  dsimp only
  rw [if_neg (by simpa using some'), read, List.length_map, Cursor.skip,
    List.drop_left' (List.length_map _)]

theorem readAck_ok {ack : Text} {more : List Text} (leads : ack.startsWith (lit "ack: ") = true)
    (all : ∀ line ∈ more, Text.startsWith line indent = true) :
    readAck ⟨line, ack :: (more ++ lit "--" :: rest)⟩ = .ok ⟨line + 1 + more.length + 1, rest⟩ := by
  have marked : Cursor.skip ⟨line, ack :: (more ++ lit "--" :: rest)⟩ 1 =
      ⟨line + 1, more ++ lit "--" :: rest⟩ := rfl
  have closing : Cursor.skip ⟨line + 1, more ++ lit "--" :: rest⟩ more.length =
      ⟨line + 1 + more.length, lit "--" :: rest⟩ := by
    rw [Cursor.skip, List.drop_left]
  rw [readAck, Cursor.current, List.headD_cons, if_pos leads, marked,
    indented_append all (by decide), closing]
  rfl

end Walk

/-! ## What is read -/

section Read

variable {cursor next : Cursor} {envelope : MailEnvelope}

theorem bind_ok {α β : Type} {read : Except Nat α} {more : α → Except Nat β} {out : β} :
    (read >>= more) = .ok out ↔ ∃ value, read = .ok value ∧ more value = .ok out := by
  cases read with
  | error line => simp [Bind.bind, Except.bind]
  | ok value => simp [Bind.bind, Except.bind]

theorem readLine_iff {α : Type} {read : Text → Option α} {value : α} :
    readLine read cursor = .ok (value, next) ↔
      read cursor.current = some value ∧ next = cursor.skip 1 := by
  unfold readLine
  cases read cursor.current with
  | none => simp
  | some found => simp [eq_comm]

theorem rest_skip (count : Nat) : (cursor.skip count).rest <:+ cursor.rest :=
  List.drop_suffix count cursor.rest

theorem readRunLine_rest {run : RunFields} (reads : readRunLine cursor = .ok (run, next)) :
    next.rest <:+ cursor.rest := by
  unfold readRunLine at reads
  split at reads
  next =>
      obtain ⟨-, rfl⟩ := readLine_iff.mp reads
      exact rest_skip 1
  next =>
      cases reads
      exact List.suffix_refl _

/-- A path is the rest of one line. -/
theorem readArtifacts_lines {artifacts : List Text}
    (reads : readArtifacts cursor = .ok (artifacts, next)) :
    ∀ path ∈ artifacts, ∃ line ∈ cursor.rest, path = line.drop indent.length := by
  unfold readArtifacts at reads
  dsimp only at reads
  split at reads
  next =>
      split at reads
      next => cases reads
      next =>
          cases reads
          intro path member
          obtain ⟨line, among, rfl⟩ := List.mem_map.mp member
          exact ⟨line, (rest_skip 1).subset ((List.takeWhile_sublist _).subset among), rfl⟩
  next =>
      cases reads
      intro path bad
      cases bad

/-- No line terminator is read of a subject, and no line feed of a path. -/
theorem readHeader_plain (reads : readHeader cursor = .ok envelope)
    (lines : ∀ line ∈ cursor.rest, newline ∉ line) :
    isPlain envelope.subject = true ∧ ∀ path ∈ envelope.artifacts, newline ∉ path := by
  unfold readHeader at reads
  obtain ⟨⟨id, afterId⟩, readsId, reads⟩ := bind_ok.mp reads
  obtain ⟨⟨fromId, afterFrom⟩, readsFrom, reads⟩ := bind_ok.mp reads
  obtain ⟨⟨toId, afterTo⟩, readsTo, reads⟩ := bind_ok.mp reads
  obtain ⟨⟨run, afterRun⟩, readsRun, reads⟩ := bind_ok.mp reads
  obtain ⟨⟨kind, afterKind⟩, readsKind, reads⟩ := bind_ok.mp reads
  obtain ⟨⟨subject, afterSubject⟩, readsSubject, reads⟩ := bind_ok.mp reads
  obtain ⟨⟨artifacts, afterArtifacts⟩, readsArtifacts, reads⟩ := bind_ok.mp reads
  obtain ⟨body, -, reads⟩ := bind_ok.mp reads
  cases reads
  obtain ⟨-, rfl⟩ := readLine_iff.mp readsId
  obtain ⟨-, rfl⟩ := readLine_iff.mp readsFrom
  obtain ⟨-, rfl⟩ := readLine_iff.mp readsTo
  obtain ⟨-, rfl⟩ := readLine_iff.mp readsKind
  obtain ⟨isSubject, rfl⟩ := readLine_iff.mp readsSubject
  have rests : (afterRun.skip 1 |>.skip 1).rest <:+ cursor.rest :=
    (rest_skip 1).trans <| (rest_skip 1).trans <| (readRunLine_rest readsRun).trans <|
      (rest_skip 1).trans <| (rest_skip 1).trans (rest_skip 1)
  constructor
  · exact (Option.filter_eq_some_iff.mp isSubject).2
  · intro path member
    obtain ⟨line, among, rfl⟩ := readArtifacts_lines readsArtifacts path member
    exact fun bad => lines line (rests.subset among) (List.mem_of_mem_drop bad)

end Read

/-! ## The whole text -/

/-- A text between two fences. -/
theorem fenced_trim {count : Nat} {text inner : Text} (long : 3 ≤ count)
    (fenced : text = List.replicate count backtick ++ inner ++ List.replicate count backtick) :
    text.trim = text ∧ text.startsWith (List.replicate 3 backtick) = true := by
  obtain ⟨more, rfl⟩ := Nat.exists_eq_add_of_le long
  constructor
  · refine @Text.trim_of_ends _ backtick backtick ?_ ?_ (by decide) (by decide)
    · simp [fenced, Nat.add_comm 3 more, List.replicate_succ]
    · rw [fenced, Nat.add_comm 3 more, List.replicate_succ', ← List.append_assoc,
        List.getLast?_concat]
  · refine List.isPrefixOf_iff_prefix.mpr ?_
    rw [fenced, List.replicate_add, List.append_assoc, List.append_assoc]
    exact List.prefix_append _ _

theorem fence_splits (count : Nat) :
    (List.replicate count backtick ++ mailEnvelopeFence).takeWhile (· == backtick) =
        List.replicate count backtick ∧
      (List.replicate count backtick ++ mailEnvelopeFence).dropWhile (· == backtick) =
        mailEnvelopeFence := by
  have all : ∀ c ∈ List.replicate count backtick, (c == backtick) = true := by
    intro c member
    rw [List.eq_of_mem_replicate member]
    rfl
  rw [List.takeWhile_append_of_pos all, List.dropWhile_append_of_pos all]
  exact ⟨List.append_nil _, rfl⟩

end MailEnvelope

open MailEnvelope

theorem parseMailEnvelope_fenced {count : Nat} {text : Text} {middle : List Text}
    {envelope : MailEnvelope} (long : 3 ≤ count) (trimmed : text.trim = text)
    (starts : text.startsWith (List.replicate 3 backtick) = true)
    (lines : text.splitOn newline = (List.replicate count backtick ++ mailEnvelopeFence) ::
      middle ++ [List.replicate count backtick])
    (reads : readHeader ⟨1, middle⟩ = .ok envelope) : parseMailEnvelope text = .ok envelope := by
  obtain ⟨opens, info⟩ := fence_splits count
  have last : ((List.replicate count backtick ++ mailEnvelopeFence) ::
      (middle ++ [List.replicate count backtick])).getLast? =
        some (List.replicate count backtick) := by
    rw [← List.cons_append, List.getLast?_concat]
  have longFence : ¬count < 3 := by omega
  unfold parseMailEnvelope
  dsimp only
  rw [trimmed, starts, lines, List.cons_append, List.headD_cons, opens, info, last,
    List.tail_cons, List.dropLast_concat, reads, List.length_replicate]
  simp [longFence]

theorem parseMailEnvelope_plain {text : Text} {envelope : MailEnvelope}
    (reads : parseMailEnvelope text = .ok envelope) :
    isPlain envelope.subject = true ∧ ∀ path ∈ envelope.artifacts, newline ∉ path := by
  unfold parseMailEnvelope at reads
  dsimp only at reads
  split at reads
  next => cases reads
  next =>
      split at reads
      next => cases reads
      next =>
          split at reads
          next => cases reads
          next =>
              split at reads
              next => cases reads
              next found =>
                  cases reads
                  refine readHeader_plain found fun line among => ?_
                  exact not_mem_of_mem_splitOn
                    (List.mem_of_mem_tail ((List.dropLast_sublist _).subset among))

end Ccrc.Shared
