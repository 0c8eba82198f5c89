import CoreBench.Proofs.Accounting
import CoreBench.Proofs.Numerals

/-!
Which statements are directives. A statement is kept as an instruction exactly if it is plain:
without a hash sign in front, or with one, but with nothing in parentheses and not under the
name of a directive. Every other statement with one hash sign either has the form of a
directive and does what its name says, or ends the reading with an error.
-/

namespace CoreBench

namespace Statement

/-- The statement begins with one hash sign and no second one. -/
def Hashed (cs : List Char) : Prop :=
  ∃ rest, cs = '#' :: rest ∧ rest.head? ≠ some '#'

/-- A statement for the assembler. -/
inductive Plain : List Char → Prop where
  | unmarked {cs : List Char} (unmarked : cs.head? ≠ some '#') : Plain cs
  | unnamed {rest : List Char} (single : rest.head? ≠ some '#')
      (unclosed : ∀ before after, rest = before ++ '(' :: after → ')' ∉ after)
      (unnamed : Text.lower (leadingName rest) ∉ kinds) : Plain ('#' :: rest)

theorem written_instruction_iff (cs : List Char) : Written cs .instruction ↔ Plain cs := by
  constructor
  · intro written
    cases written with
    | bare single unclosed unnamed => exact .unnamed single unclosed unnamed
    | instruction unmarked => exact .unmarked unmarked
  · intro plain
    cases plain with
    | unmarked unmarked => exact .instruction unmarked
    | unnamed single unclosed unnamed => exact .bare single unclosed unnamed

instance : DecidablePred Plain := fun cs =>
  decidable_of_iff (classify cs = .ok .instruction)
    ((classify_iff cs .instruction).trans (written_instruction_iff cs))

/-- The text of a delay: nothing for one cycle, or a decimal number of 32 bits that may have a
plus sign. -/
inductive Cycles : List Char → Nat → Prop where
  | missing : Cycles [] 1
  | number {digits : List Char} {count : Nat} (decimal : Text.Decimal digits count)
      (short : count < 2 ^ 32) : Cycles digits count
  | signed {digits : List Char} {count : Nat} (decimal : Text.Decimal digits count)
      (short : count < 2 ^ 32) : Cycles ('+' :: digits) count

theorem cycles_iff (text : List Char) (count : Nat) : Delays text count ↔ Cycles text count := by
  have size : (1 : Nat) <<< 32 = 2 ^ 32 := Nat.one_shiftLeft 32
  rw [Delays, Text.unsigned_iff, size]
  constructor
  · rintro (⟨rfl, rfl⟩ | ⟨decimal | ⟨digits, rfl, decimal⟩, short⟩)
    · exact .missing
    · exact .number decimal short
    · exact .signed decimal short
  · intro cycles
    cases cycles with
    | missing => exact .inl ⟨rfl, rfl⟩
    | number decimal short => exact .inr ⟨.inl decimal, short⟩
    | signed decimal short => exact .inr ⟨.inr ⟨_, rfl, decimal⟩, short⟩

/-- A directive as text: behind one hash sign a word with perhaps a delay, and the content from
after the first parenthesis that opens to before the last one that closes. -/
inductive Directs : List Char → List Char → Nat → List Char → Prop where
  | intro {head content rest kind text : List Char} {count : Nat}
      (single : head.head? ≠ some '#') (opens : '(' ∉ head) (closes : ')' ∉ rest)
      (headed : Headed (Text.trim head) kind text) (cycles : Cycles text count) :
      Directs ('#' :: (head ++ '(' :: (content ++ ')' :: rest))) (Text.lower kind) count
        (Text.trim content)

theorem written_directive_iff (cs kind content : List Char) (count : Nat) :
    Written cs (.directive kind count content) ↔ Directs cs kind count content := by
  constructor
  · intro written
    cases written with
    | directive single opens closes headed delays =>
        exact .intro single opens closes headed ((cycles_iff _ _).mp delays)
  · intro directs
    cases directs with
    | intro single opens closes headed cycles =>
        exact .directive single opens closes headed ((cycles_iff _ _).mpr cycles)

/-- A statement with one hash sign is an instruction or a directive. -/
theorem written_hashed (cs : List Char) (form : Statement) (hashed : Hashed cs)
    (written : Written cs form) :
    form = .instruction ∨ ∃ kind count content, form = .directive kind count content := by
  obtain ⟨rest, rfl, single⟩ := hashed
  generalize whole : '#' :: rest = cs at written
  cases written with
  | todo marked =>
      obtain ⟨_, rfl⟩ := marked_start cs marked
      cases whole
      exact absurd rfl single
  | remark =>
      cases whole
      exact absurd rfl single
  | directive => exact .inr ⟨_, _, _, rfl⟩
  | bare | instruction => exact .inl rfl

end Statement

namespace Bench

/-- The texts of the statements for the assembler. -/
def plainTexts (statements : List (Nat × List Char)) : List String :=
  (statements.filter fun statement => Statement.Plain statement.2).map fun statement =>
    String.ofList statement.2

/-- Reading a text has come to a statement, with what the statements before it have left. -/
def Reaches (arch : Arch) (text : String) (draft : Draft) (line : Nat) (cs : List Char) : Prop :=
  ∃ before after, Statement.ofText text.toList = before ++ (line, cs) :: after ∧
    before.foldlM (Draft.step arch) {} = .ok draft

namespace Draft

variable {arch : Arch} {draft : Draft} {line : Nat} {cs : List Char}

/-- A step adds the statement to the instructions if it is plain, and nothing otherwise. -/
theorem step_instructions {next : Draft} (stepped : draft.step arch (line, cs) = .ok next) :
    next.bench.instructions = draft.bench.instructions ++ plainTexts [(line, cs)] := by
  obtain ⟨form, written, taken⟩ := (step_ok_iff arch draft next line cs).mp stepped
  have same : form = .instruction ↔ Statement.Plain cs := by
    rw [← Statement.written_instruction_iff]
    constructor
    · rintro rfl
      exact written
    · intro plain
      have read := (Statement.classify_iff cs form).mpr written
      rw [(Statement.classify_iff cs .instruction).mpr plain] at read
      exact (Except.ok.inj read).symm
  rw [takes_instructions taken]
  by_cases plain : Statement.Plain cs
  · simp [same.mpr plain, plainTexts, plain]
  · simp [mt same.mp plain, plainTexts, plain]

theorem run_instructions (statements : List (Nat × List Char)) (after : Draft)
    (ran : statements.foldlM (step arch) draft = .ok after) :
    after.bench.instructions = draft.bench.instructions ++ plainTexts statements := by
  induction statements generalizing draft with
  | nil =>
      cases ran
      exact (List.append_nil _).symm
  | cons statement rest ih =>
      rw [List.foldlM_cons] at ran
      cases stepped : draft.step arch statement with
      | error error =>
          rw [stepped] at ran
          cases ran
      | ok next =>
          rw [stepped] at ran
          rw [ih ran, step_instructions stepped, List.append_assoc, plainTexts, plainTexts,
            ← List.map_append, ← List.filter_append, List.singleton_append, plainTexts]

theorem step_plain (plain : Statement.Plain cs) :
    ∃ next, draft.step arch (line, cs) = .ok next :=
  ⟨_, (step_ok_iff arch draft _ line cs).mpr
    ⟨.instruction, (Statement.written_instruction_iff cs).mpr plain, .instruction⟩⟩

/-- A statement is kept when the instructions go on with its text. -/
theorem kept_iff : (∃ next, draft.step arch (line, cs) = .ok next ∧
      next.bench.instructions = draft.bench.instructions ++ [String.ofList cs]) ↔
    Statement.Plain cs := by
  constructor
  · rintro ⟨next, stepped, kept⟩
    rw [step_instructions stepped, List.append_cancel_left_eq] at kept
    by_contra plain
    simp [plainTexts, plain] at kept
  · intro plain
    obtain ⟨next, stepped⟩ := step_plain plain
    exact ⟨next, stepped, by simp [step_instructions stepped, plainTexts, plain]⟩

theorem step_hashed_iff (next : Draft) (hashed : Statement.Hashed cs)
    (other : ¬ Statement.Plain cs) :
    draft.step arch (line, cs) = .ok next ↔
      ∃ kind count content, Statement.Directs cs kind count content ∧
        draft.Takes arch line cs (.directive kind count content) next := by
  rw [step_ok_iff]
  constructor
  · rintro ⟨form, written, taken⟩
    rcases Statement.written_hashed cs form hashed written with rfl | ⟨kind, count, content, rfl⟩
    · exact absurd ((Statement.written_instruction_iff cs).mp written) other
    · exact ⟨kind, count, content, (Statement.written_directive_iff ..).mp written, taken⟩
  · rintro ⟨kind, count, content, directs, taken⟩
    exact ⟨_, (Statement.written_directive_iff ..).mpr directs, taken⟩

theorem step_error {error : BenchError} (failed : draft.step arch (line, cs) = .error error) :
    ∃ reason, error = ⟨line, String.ofList cs, reason⟩ := by
  rw [step] at failed
  split at failed
  next reason _ =>
    cases failed
    exact ⟨reason, rfl⟩
  next => cases failed

end Draft

/-- An error in a statement that is reached is the result of reading the text. -/
theorem parse_error {arch : Arch} {text : String} {draft : Draft} {line : Nat} {cs : List Char}
    {error : BenchError} (reached : Reaches arch text draft line cs)
    (failed : draft.step arch (line, cs) = .error error) : parse arch text = .error error := by
  obtain ⟨before, after, whole, ran⟩ := reached
  rw [parse, ofStatements, whole, List.foldlM_append, ran]
  show ((List.foldlM (Draft.step arch) draft ((line, cs) :: after)).map Draft.bench) = _
  rw [List.foldlM_cons, failed]
  rfl

/-- The instructions of a bench are the plain statements of its text. A statement that is
reached is kept exactly if it is plain; with one hash sign and not plain, it is executed as the
directive that it is written as, or it is none that can be executed and ends the reading. -/
theorem parse_sorts_statements (arch : Arch) (text : String) (draft : Draft) (line : Nat)
    (cs : List Char) (reached : Reaches arch text draft line cs) :
    (∀ bench, parse arch text = .ok bench →
      bench.instructions = plainTexts (Statement.ofText text.toList)) ∧
    ((∃ next, draft.step arch (line, cs) = .ok next ∧
        next.bench.instructions = draft.bench.instructions ++ [String.ofList cs]) ↔
      Statement.Plain cs) ∧
    (Statement.Hashed cs → ¬ Statement.Plain cs →
      (∃ kind count content next, Statement.Directs cs kind count content ∧
        draft.Takes arch line cs (.directive kind count content) next ∧
        draft.step arch (line, cs) = .ok next) ∨
      (¬ ∃ kind count content next, Statement.Directs cs kind count content ∧
        draft.Takes arch line cs (.directive kind count content) next) ∧
        ∃ reason, parse arch text = .error ⟨line, String.ofList cs, reason⟩) := by
  refine ⟨?_, Draft.kept_iff, ?_⟩
  · intro bench read
    obtain ⟨last, ran, rfl⟩ := (of_statements_ok_iff arch _ bench).mp read
    exact Draft.run_instructions _ last ran
  · intro hashed other
    have executed (next : Draft) : draft.step arch (line, cs) = .ok next ↔ _ :=
      Draft.step_hashed_iff next hashed other
    cases stepped : draft.step arch (line, cs) with
    | ok next =>
        obtain ⟨kind, count, content, directs, taken⟩ := (executed next).mp stepped
        exact .inl ⟨kind, count, content, next, directs, taken, rfl⟩
    | error error =>
        obtain ⟨reason, rfl⟩ := Draft.step_error stepped
        refine .inr ⟨?_, reason, parse_error reached stepped⟩
        rintro ⟨kind, count, content, next, directs, taken⟩
        have succeeded := (executed next).mpr ⟨kind, count, content, directs, taken⟩
        rw [stepped] at succeeded
        cases succeeded

/-- The parentheses of the second statement stand the wrong way round. -/
def endingText : String :=
  "nop\n# a) b (\n#End @ +2 (x)"

def endingDraft : Draft where
  bench := { instructions := ["nop", "# a) b ("] }
  counter := 1

theorem ending_is_sorted :
    let ending := "#End @ +2 (x)".toList
    Reaches {} endingText endingDraft 3 ending ∧
      (∃ bench, parse {} endingText = .ok bench ∧
        bench.instructions = plainTexts (Statement.ofText endingText.toList)) ∧
      Statement.Hashed ending ∧ ¬ Statement.Plain ending ∧
      ∃ kind count content next, Statement.Directs ending kind count content ∧
        endingDraft.Takes {} 3 ending (.directive kind count content) next ∧
        endingDraft.step {} (3, ending) = .ok next := by
  intro ending
  have reached : Reaches {} endingText endingDraft 3 ending :=
    ⟨[(1, "nop".toList), (2, "# a) b (".toList)], [], by decide +kernel, by decide +kernel⟩
  have read : parse {} endingText = .ok { endingDraft.bench with
      commands := [⟨.finish, 1, 2, "x", 3⟩] } := by decide +kernel
  have hashed : Statement.Hashed ending := ⟨_, rfl, by decide⟩
  have other : ¬ Statement.Plain ending := by decide +kernel
  obtain ⟨instructions, _, executed⟩ :=
    parse_sorts_statements {} endingText endingDraft 3 ending reached
  refine ⟨reached, ⟨_, read, instructions _ read⟩, hashed, other, ?_⟩
  rcases executed hashed other with directive | ⟨_, reason, failed⟩
  · exact directive
  · rw [read] at failed
    cases failed

end Bench

end CoreBench
