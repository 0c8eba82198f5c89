import CoreBench.Proofs.Drafting
import CoreBench.Proofs.Lines
import CoreBench.Proofs.Trimming
import Mathlib.Data.List.Forall2

/-!
Line feeds and dollar signs separate statements alike. A text that is written on one line,
with dollar signs where the lines ended, has the same statements, and reading looks at nothing
but the statements: the number of a line is only handed on to commands and to errors.
-/

namespace CoreBench

/-- A dollar sign in the place of a line feed. -/
def Text.feedToDollar (c : Char) : Char :=
  if c = '\n' then '$' else c

namespace Statement

theorem split_lines (cs : List Char) :
    (cs.map Text.feedToDollar).splitOn '$' =
      (cs.splitOn '\n').flatMap fun line => line.splitOn '$' := by
  induction cs with
  | nil => rfl
  | cons c cs ih =>
      obtain ⟨line, lines, split⟩ := List.exists_cons_of_ne_nil (List.splitOn_ne_nil '\n' cs)
      rw [split, List.flatMap_cons] at ih
      rw [List.map_cons, List.splitOn_cons_eq_if_modifyHead, ih,
        List.splitOn_cons_eq_if_modifyHead, split]
      by_cases feed : c = '\n'
      · subst feed
        rfl
      · obtain ⟨piece, pieces, cut⟩ := List.exists_cons_of_ne_nil (List.splitOn_ne_nil '$' line)
        by_cases dollar : c = '$'
        · subst dollar
          simp [Text.feedToDollar, List.splitOn_cons_eq_if_modifyHead]
        · simp [Text.feedToDollar, feed, dollar, List.splitOn_cons_eq_if_modifyHead, cut]

/-- Trimming a line before it is cut into statements changes none of them. -/
theorem of_line_eq_pieces (line : List Char) : ofLine line = Text.pieces '$' line :=
  Text.pieces_trim '$' (by decide) line

theorem of_lines_texts (number : Nat) (lines : List (List Char)) :
    (ofLines number lines).map Prod.snd = lines.flatMap ofLine := by
  induction lines generalizing number with
  | nil => rfl
  | cons line lines ih =>
      have numbered : (ofLine line).map (Prod.snd ∘ Prod.mk number) = ofLine line := List.map_id _
      rw [ofLines, List.map_append, List.map_map, numbered, ih, List.flatMap_cons]

/-- Apart from their lines, a text has the same statements when it is written on one line. -/
theorem of_text_on_one_line (cs : List Char) :
    (ofText (cs.map Text.feedToDollar)).map Prod.snd = (ofText cs).map Prod.snd := by
  have single : '\n' ∉ cs.map Text.feedToDollar := by
    intro member
    obtain ⟨c, _, same⟩ := List.mem_map.mp member
    by_cases feed : c = '\n'
    · simp [Text.feedToDollar, feed] at same
    · simp [Text.feedToDollar, feed] at same
  have numbered : (ofLine (cs.map Text.feedToDollar)).map (Prod.snd ∘ Prod.mk 1) =
      ofLine (cs.map Text.feedToDollar) := List.map_id _
  rw [of_text_line _ single, List.map_map, numbered, of_text_eq, of_lines_texts, of_line_eq_pieces,
    Text.pieces, split_lines, List.map_flatMap, List.filter_flatMap]
  congr 1
  funext line
  exact (of_line_eq_pieces line).symm

end Statement

def Command.renumber (number : Nat → Nat) (command : Command) : Command :=
  { command with line := number command.line }

def BenchError.renumber (number : Nat → Nat) (error : BenchError) : BenchError :=
  { error with line := number error.line }

namespace Bench

def renumber (number : Nat → Nat) (bench : Bench) : Bench :=
  { bench with commands := bench.commands.map (Command.renumber number) }

namespace Draft

def renumber (number : Nat → Nat) (draft : Draft) : Draft :=
  { draft with bench := draft.bench.renumber number }

variable (number : Nat → Nat) (draft : Draft) (arch : Arch) (line : Nat)

theorem add_renumber (kind : List Char) (action : Action) (delay : Nat) (content : List Char) :
    (draft.renumber number).add kind action delay content (number line) =
      (draft.add kind action delay content line).map (renumber number) := by
  obtain ⟨bench, counter⟩ := draft
  cases counter with
  | negSucc => rfl
  | ofNat address => simp [add, renumber, Bench.renumber, Command.renumber, Except.map]

theorem direct_renumber (kind : List Char) (delay : Nat) (content : List Char) :
    (draft.renumber number).direct arch (number line) kind delay content =
      (draft.direct arch line kind delay content).map (renumber number) := by
  have aliases : (draft.renumber number).bench.aliases = draft.bench.aliases := rfl
  rw [direct, direct, aliases]
  split
  · rfl
  split
  · split <;> rfl
  split
  · exact add_renumber number draft line kind .finish delay content
  split
  · split
    · rfl
    · exact add_renumber number draft line kind _ delay content
  split
  · split
    · rfl
    · exact add_renumber number draft line kind _ delay content
  · rfl

theorem take_renumber (cs : List Char) :
    (draft.renumber number).take arch (number line) cs =
      (draft.take arch line cs).map (renumber number) := by
  rw [take, take]
  split
  · rfl
  · rfl
  · rfl
  · rfl
  · exact direct_renumber number draft arch line _ _ _

theorem step_renumber (statement : Nat × List Char) :
    (draft.renumber number).step arch (statement.map number id) =
      ((draft.step arch statement).map (renumber number)).mapError (BenchError.renumber number) := by
  obtain ⟨line, cs⟩ := statement
  rw [step, step]
  dsimp only [Prod.map, id]
  rw [take_renumber]
  cases draft.take arch line cs with
  | error error => rfl
  | ok next => rfl

theorem run_renumber (statements : List (Nat × List Char)) :
    (statements.map (Prod.map number id)).foldlM (step arch) (draft.renumber number) =
      ((statements.foldlM (step arch) draft).map (renumber number)).mapError
        (BenchError.renumber number) := by
  induction statements generalizing draft with
  | nil => rfl
  | cons statement rest ih =>
      rw [List.map_cons, List.foldlM_cons, List.foldlM_cons, step_renumber]
      cases draft.step arch statement with
      | error error => rfl
      | ok next => exact ih next

end Draft

theorem of_statements_renumber (number : Nat → Nat) (arch : Arch)
    (statements : List (Nat × List Char)) :
    ofStatements arch (statements.map (Prod.map number id)) =
      ((ofStatements arch statements).map (renumber number)).mapError
        (BenchError.renumber number) := by
  have ran : (statements.map (Prod.map number id)).foldlM (Draft.step arch) {} = _ :=
    Draft.run_renumber number {} arch statements
  rw [ofStatements, ofStatements, ran]
  cases statements.foldlM (Draft.step arch) {} with
  | error error => rfl
  | ok draft => rfl

end Bench

/-- Two commands that are the same but for their lines. -/
structure Command.Alike (command other : Command) : Prop where
  action : command.action = other.action
  address : command.address = other.address
  delay : command.delay = other.delay
  parameters : command.parameters = other.parameters

theorem Command.alike_of_renumber {number : Nat → Nat} {command other : Command}
    (same : command.renumber number = other.renumber number) : command.Alike other := by
  rw [renumber, renumber, Command.mk.injEq] at same
  obtain ⟨action, address, delay, parameters, _⟩ := same
  exact ⟨action, address, delay, parameters⟩

namespace Bench

/-- Two texts have been read alike: line numbers apart, as the same bench or with the same
error in the same statement. -/
inductive ReadAlike : Except BenchError Bench → Except BenchError Bench → Prop where
  | read {bench other : Bench} (instructions : bench.instructions = other.instructions)
      (todos : bench.todos = other.todos) (aliases : bench.aliases = other.aliases)
      (commands : List.Forall₂ Command.Alike bench.commands other.commands) :
      ReadAlike (.ok bench) (.ok other)
  | failed {error other : BenchError} (statement : error.statement = other.statement)
      (reason : error.error = other.error) : ReadAlike (.error error) (.error other)

theorem alike_of_renumber {number : Nat → Nat} {bench other : Bench}
    (same : bench.renumber number = other.renumber number) :
    ReadAlike (.ok bench) (.ok other) := by
  rw [renumber, renumber, Bench.mk.injEq] at same
  obtain ⟨instructions, commands, aliases, todos⟩ := same
  rw [← List.forall₂_eq_eq_eq, List.forall₂_map_left_iff, List.forall₂_map_right_iff] at commands
  exact .read instructions todos aliases
    (commands.imp fun _ _ equal => Command.alike_of_renumber equal)

theorem error_alike_of_renumber {number : Nat → Nat} {error other : BenchError}
    (same : error.renumber number = other.renumber number) :
    ReadAlike (.error error) (.error other) := by
  rw [BenchError.renumber, BenchError.renumber, BenchError.mk.injEq] at same
  exact .failed same.2.1 same.2.2

/-- The texts of the statements are all that reading looks at. -/
theorem of_statements_alike (arch : Arch) (statements others : List (Nat × List Char))
    (same : statements.map Prod.snd = others.map Prod.snd) :
    ReadAlike (ofStatements arch statements) (ofStatements arch others) := by
  have erased (list : List (Nat × List Char)) :
      list.map (Prod.map (fun _ => 0) id) = (list.map Prod.snd).map (Prod.mk 0) :=
    (List.map_map ..).symm
  have results := congrArg (ofStatements arch ∘ List.map (Prod.mk 0)) same
  simp only [Function.comp_apply, ← erased, of_statements_renumber] at results
  cases first : ofStatements arch statements with
  | error error =>
      cases second : ofStatements arch others with
      | error other =>
          rw [first, second] at results
          exact error_alike_of_renumber (Except.error.inj results)
      | ok other =>
          rw [first, second] at results
          cases results
  | ok bench =>
      cases second : ofStatements arch others with
      | error other =>
          rw [first, second] at results
          cases results
      | ok other =>
          rw [first, second] at results
          exact alike_of_renumber (Except.ok.inj results)

/-- A text is read alike when every line feed in it is replaced by a dollar sign. -/
theorem parse_on_one_line (arch : Arch) (text : String) :
    ReadAlike (parse arch (text.map Text.feedToDollar)) (parse arch text) := by
  apply of_statements_alike
  rw [String.toList_map]
  exact Statement.of_text_on_one_line text.toList

end Bench

end CoreBench
