import CoreBench.Bench.Source
import CoreBench.Proofs.Statements

/-!
What one statement does to a bench that is read. A note, a remark, an instruction, a skip
and an alias each leave one thing in the draft; every other directive has to be known by
its name, and adds a command once there is an instruction to hold it.
-/

namespace CoreBench

/-- The action that a directive stands for, by its name and what its parentheses hold. -/
inductive Action.Reads (arch : Arch) (aliases : AliasTable) :
    List Char → List Char → Action → Prop where
  | finish (content : List Char) : Reads arch aliases "end".toList content .finish
  | compare {kind content : List Char} {comparison : Comparison}
      (named : kind = "assert".toList ∨ kind = "test".toList)
      (read : Comparison.parse arch aliases content = .ok comparison) :
      Reads arch aliases kind content (.compare comparison)
  | interrupt {content : List Char} {update : IrqUpdate}
      (read : IrqUpdate.parse arch content = .ok update) :
      Reads arch aliases "irq".toList content (.interrupt update)

namespace Bench.Draft

/-- What a draft becomes by a statement. -/
inductive Takes (arch : Arch) (draft : Draft) (line : Nat) (cs : List Char) :
    Statement → Draft → Prop where
  | todo : Takes arch draft line cs .todo
      { draft with bench := { draft.bench with todos := draft.bench.todos ++ [String.ofList cs] } }
  | remark : Takes arch draft line cs .remark draft
  | instruction : Takes arch draft line cs .instruction
      { bench := { draft.bench with instructions := draft.bench.instructions ++ [String.ofList cs] }
        counter := draft.counter + 1 }
  | skip (delay : Nat) (content : List Char) :
      Takes arch draft line cs (.directive "skip".toList delay content)
        { draft with counter := draft.counter + delay }
  | define {content : List Char} {fresh : Alias} {aliases : AliasTable} (delay : Nat)
      (defined : draft.bench.aliases.define content = .ok (fresh, aliases)) :
      Takes arch draft line cs (.directive "alias".toList delay content)
        { draft with bench := { draft.bench with aliases := aliases } }
  | command {kind content : List Char} {action : Action} {address : Nat} (delay : Nat)
      (reads : action.Reads arch draft.bench.aliases kind content)
      (reached : draft.counter = address) :
      Takes arch draft line cs (.directive kind delay content)
        { draft with
          bench := { draft.bench with
            commands := draft.bench.commands ++
              [⟨action, address, delay, String.ofList content, line⟩] } }

theorem add_ok_iff (draft after : Draft) (kind : List Char) (action : Action) (delay : Nat)
    (content : List Char) (line : Nat) :
    draft.add kind action delay content line = .ok after ↔
      ∃ address : Nat, draft.counter = address ∧
        { draft with
          bench := { draft.bench with
            commands := draft.bench.commands ++
              [⟨action, address, delay, String.ofList content, line⟩] } } = after := by
  rw [add]
  split
  next early =>
    simp only [reduceCtorEq, false_iff, not_exists, not_and]
    intro address reached
    rw [early] at reached
    cases reached
  next address reached =>
    rw [Except.ok.injEq]
    constructor
    · intro same
      exact ⟨address, reached, same⟩
    · rintro ⟨other, again, same⟩
      obtain rfl : address = other := Int.ofNat.inj (reached.symm.trans again)
      exact same

theorem takes_of_add (arch : Arch) (draft after : Draft) (line : Nat) (cs kind : List Char)
    (action : Action) (delay : Nat) (content : List Char)
    (reads : action.Reads arch draft.bench.aliases kind content)
    (added : draft.add kind action delay content line = .ok after) :
    Takes arch draft line cs (.directive kind delay content) after := by
  obtain ⟨address, reached, rfl⟩ := (add_ok_iff draft after kind action delay content line).mp added
  exact .command delay reads reached

theorem takes_of_direct (arch : Arch) (draft after : Draft) (line : Nat) (cs kind : List Char)
    (delay : Nat) (content : List Char)
    (done : draft.direct arch line kind delay content = .ok after) :
    Takes arch draft line cs (.directive kind delay content) after := by
  unfold direct at done
  split at done
  next named =>
    cases done
    subst named
    exact .skip delay content
  split at done
  next named =>
    subst named
    split at done
    next => cases done
    next fresh aliases defined =>
      cases done
      exact .define delay defined
  split at done
  next named =>
    subst named
    exact takes_of_add arch draft after line cs _ _ delay content (.finish content) done
  split at done
  next named =>
    split at done
    next => cases done
    next comparison read =>
      exact takes_of_add arch draft after line cs _ _ delay content (.compare named read) done
  split at done
  next named =>
    subst named
    split at done
    next => cases done
    next update read =>
      exact takes_of_add arch draft after line cs _ _ delay content (.interrupt read) done
  next => cases done

theorem direct_of_takes (arch : Arch) (draft after : Draft) (line : Nat) (cs kind : List Char)
    (delay : Nat) (content : List Char)
    (taken : Takes arch draft line cs (.directive kind delay content) after) :
    draft.direct arch line kind delay content = .ok after := by
  cases taken with
  | skip => rfl
  | define _ defined =>
      unfold direct
      rw [if_neg (by decide), if_pos rfl, defined]
  | @command _ _ action address _ reads reached =>
      have added := (add_ok_iff draft _ kind action delay content line).mpr
        ⟨address, reached, rfl⟩
      unfold direct
      cases reads with
      | finish =>
          rw [if_neg (by decide), if_neg (by decide), if_pos rfl, added]
      | @compare _ _ comparison named read =>
          have other : kind ≠ "skip".toList ∧ kind ≠ "alias".toList ∧ kind ≠ "end".toList := by
            rcases named with rfl | rfl
            · decide
            · decide
          rw [if_neg other.1, if_neg other.2.1, if_neg other.2.2, if_pos named, read]
          exact added
      | interrupt read =>
          rw [if_neg (by decide), if_neg (by decide), if_neg (by decide), if_neg (by decide),
            if_pos rfl, read]
          exact added

theorem direct_ok_iff (arch : Arch) (draft after : Draft) (line : Nat) (cs kind : List Char)
    (delay : Nat) (content : List Char) :
    draft.direct arch line kind delay content = .ok after ↔
      Takes arch draft line cs (.directive kind delay content) after :=
  ⟨takes_of_direct arch draft after line cs kind delay content,
    direct_of_takes arch draft after line cs kind delay content⟩

theorem take_ok_iff (arch : Arch) (draft after : Draft) (line : Nat) (cs : List Char) :
    draft.take arch line cs = .ok after ↔
      ∃ form, Statement.Written cs form ∧ Takes arch draft line cs form after := by
  simp only [← Statement.classify_iff]
  rw [take]
  constructor
  · intro taken
    split at taken
    next => cases taken
    next written =>
      cases taken
      exact ⟨.todo, written, .todo⟩
    next written =>
      cases taken
      exact ⟨.remark, written, .remark⟩
    next written =>
      cases taken
      exact ⟨.instruction, written, .instruction⟩
    next kind delay content written =>
      exact ⟨.directive kind delay content, written,
        (direct_ok_iff arch draft after line cs kind delay content).mp taken⟩
  · rintro ⟨form, written, taken⟩
    rw [written]
    cases form with
    | todo =>
        cases taken
        rfl
    | remark =>
        cases taken
        rfl
    | instruction =>
        cases taken
        rfl
    | directive kind delay content =>
        exact (direct_ok_iff arch draft after line cs kind delay content).mpr taken

theorem step_ok_iff (arch : Arch) (draft after : Draft) (line : Nat) (cs : List Char) :
    draft.step arch (line, cs) = .ok after ↔
      ∃ form, Statement.Written cs form ∧ Takes arch draft line cs form after := by
  rw [← take_ok_iff, step]
  cases draft.take arch line cs with
  | error error => simp
  | ok next => simp

theorem run_append (arch : Arch) (statements : List (Nat × List Char))
    (statement : Nat × List Char) (draft next : Draft)
    (ran : statements.foldlM (step arch) {} = .ok draft)
    (stepped : draft.step arch statement = .ok next) :
    (statements ++ [statement]).foldlM (step arch) {} = .ok next := by
  rw [List.foldlM_append, ran]
  calc [statement].foldlM (step arch) draft
      = draft.step arch statement >>= pure := List.foldlM_cons ..
    _ = .ok next := by rw [stepped]; rfl

/-- What every statement that is taken keeps, reading keeps. -/
theorem run_keeps (arch : Arch) (holds : Draft → Prop)
    (taking : ∀ draft after line cs form, draft.Takes arch line cs form after → holds draft →
      holds after)
    (statements : List (Nat × List Char)) (before after : Draft)
    (ran : statements.foldlM (step arch) before = .ok after) (start : holds before) :
    holds after := by
  induction statements generalizing before with
  | nil =>
      cases ran
      exact start
  | cons statement rest ih =>
      rw [List.foldlM_cons] at ran
      cases stepped : before.step arch statement with
      | error error =>
          rw [stepped] at ran
          cases ran
      | ok next =>
          rw [stepped] at ran
          obtain ⟨form, _, taken⟩ :=
            (step_ok_iff arch before next statement.1 statement.2).mp stepped
          exact ih next ran (taking before next _ _ form taken start)

end Bench.Draft

theorem Bench.of_statements_ok_iff (arch : Arch) (statements : List (Nat × List Char))
    (bench : Bench) :
    ofStatements arch statements = .ok bench ↔
      ∃ draft, statements.foldlM (Draft.step arch) {} = .ok draft ∧ draft.bench = bench := by
  rw [ofStatements]
  cases statements.foldlM (Draft.step arch) {} with
  | error error => simp [Except.map]
  | ok draft => simp [Except.map]

end CoreBench
