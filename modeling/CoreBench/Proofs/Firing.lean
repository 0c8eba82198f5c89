import CoreBench.Proofs.Stepping

/-!
What fires in a run, and what the tally makes of it. The commands that a step fires are
written down with the snapshot that they see. At the end of a run its tally has counted the
comparisons among them, those that hold and those that do not, and it is complete exactly if
an end directive is among them. The run succeeds only then, and not if one of its steps fails.
-/

namespace CoreBench

/-- The values of both sides are known, and the relation holds between them. -/
def Comparison.holds (comparison : Comparison) (snapshot : Snapshot) : Bool :=
  match comparison.evaluate snapshot with
  | .error _ => false
  | .ok (a, b) => comparison.relation.holds a b

namespace Command

theorem check_of_holds {comparison : Comparison} {snapshot : Snapshot} (command : Command)
    (arch : Arch) (holds : comparison.holds snapshot = true) :
    command.check comparison snapshot arch = .passed := by
  rw [Comparison.holds] at holds
  rw [check]
  cases evaluated : comparison.evaluate snapshot with
  | error error =>
      rw [evaluated] at holds
      cases holds
  | ok values =>
      rw [evaluated] at holds
      exact if_pos holds

theorem check_of_fails {comparison : Comparison} {snapshot : Snapshot} (command : Command)
    (arch : Arch) (fails : comparison.holds snapshot = false) :
    ∃ message, command.check comparison snapshot arch = .failed message := by
  rw [Comparison.holds] at fails
  rw [check]
  cases evaluated : comparison.evaluate snapshot with
  | error error => exact ⟨_, rfl⟩
  | ok values =>
      rw [evaluated] at fails
      exact ⟨_, if_neg (Bool.not_eq_true _ ▸ fails)⟩

/-- What can come of a command, and when. -/
inductive Yields (command : Command) (snapshot : Snapshot) : Outcome → Prop where
  | held (comparison : Comparison) (action : command.action = .compare comparison)
      (holds : comparison.holds snapshot = true) : Yields command snapshot .passed
  | missed (comparison : Comparison) (message : String)
      (action : command.action = .compare comparison)
      (fails : comparison.holds snapshot = false) : Yields command snapshot (.failed message)
  | changed (update : IrqUpdate) (action : command.action = .interrupt update) :
      Yields command snapshot (.interrupt update)
  | ended (action : command.action = .finish) : Yields command snapshot .finished

theorem execute_yields (command : Command) (snapshot : Snapshot) (arch : Arch) :
    command.Yields snapshot (command.execute snapshot arch) := by
  unfold execute
  cases action : command.action with
  | compare comparison =>
      change command.Yields snapshot (command.check comparison snapshot arch)
      cases holds : comparison.holds snapshot with
      | true =>
          rw [command.check_of_holds arch holds]
          exact .held comparison action holds
      | false =>
          obtain ⟨message, check⟩ := command.check_of_fails arch holds
          rw [check]
          exact .missed comparison message action holds
  | interrupt update => exact .changed update action
  | finish => exact .ended action

end Command

/-- A command that has fired, and the state of the core that it has seen. -/
structure Firing where
  command : Command
  snapshot : Snapshot
  deriving DecidableEq, Repr

namespace Firing

def passes (firing : Firing) : Bool :=
  match firing.command.action with
  | .compare comparison => comparison.holds firing.snapshot
  | _ => false

def fails (firing : Firing) : Bool :=
  match firing.command.action with
  | .compare comparison => !comparison.holds firing.snapshot
  | _ => false

def finishes (firing : Firing) : Bool :=
  firing.command.action = .finish

theorem of_compare {firing : Firing} {comparison : Comparison}
    (action : firing.command.action = .compare comparison) :
    firing.passes = comparison.holds firing.snapshot ∧
      firing.fails = !comparison.holds firing.snapshot ∧ firing.finishes = false := by
  rw [passes, fails, finishes, action]
  exact ⟨rfl, rfl, rfl⟩

theorem passes_iff (firing : Firing) :
    firing.passes = true ↔ ∃ comparison, firing.command.action = .compare comparison ∧
      comparison.holds firing.snapshot = true := by
  rw [passes]
  cases firing.command.action <;> simp

theorem fails_iff (firing : Firing) :
    firing.fails = true ↔ ∃ comparison, firing.command.action = .compare comparison ∧
      comparison.holds firing.snapshot = false := by
  rw [fails]
  cases firing.command.action <;> simp

end Firing

/-- A tally that has counted some firings. -/
structure Tally.Counts (fired : List Firing) (tally : Tally) : Prop where
  passed : tally.passed = fired.countP Firing.passes
  failed : tally.failed = fired.countP Firing.fails
  complete : tally.complete = fired.any Firing.finishes

namespace Tally

theorem counts_nil : Counts [] {} :=
  ⟨rfl, rfl, rfl⟩

theorem Counts.next {fired : List Firing} {tally after : Tally} (counts : Counts fired tally)
    (firing : Firing) (passed : after.passed = tally.passed + if firing.passes then 1 else 0)
    (failed : after.failed = tally.failed + if firing.fails then 1 else 0)
    (complete : after.complete = (tally.complete || firing.finishes)) :
    Counts (fired ++ [firing]) after where
  passed := by rw [passed, counts.passed, List.countP_append, List.countP_singleton]
  failed := by rw [failed, counts.failed, List.countP_append, List.countP_singleton]
  complete := by
    rw [complete, counts.complete, List.any_append, List.any_cons, List.any_nil, Bool.or_false]

/-- The outcome of a command counts for the comparison or the end that the command is. -/
theorem Counts.record {fired : List Firing} {tally : Tally} (counts : Counts fired tally)
    (firing : Firing) (arch : Arch) :
    Counts (fired ++ [firing]) (tally.record (firing.command.execute firing.snapshot arch)) := by
  have yields := firing.command.execute_yields firing.snapshot arch
  generalize firing.command.execute firing.snapshot arch = outcome at yields
  cases yields with
  | held comparison action holds =>
      obtain ⟨passes, fails, finishes⟩ := Firing.of_compare action
      apply counts.next <;> simp [Tally.record, Tally.failed, passes, fails, finishes, holds]
  | missed comparison message action fails =>
      obtain ⟨passes, fails', finishes⟩ := Firing.of_compare action
      apply counts.next <;> simp [Tally.record, Tally.failed, passes, fails', finishes, fails]
  | changed update action =>
      apply counts.next <;>
        simp [Tally.record, Tally.failed, Firing.passes, Firing.fails, Firing.finishes, action]
  | ended action =>
      apply counts.next <;>
        simp [Tally.record, Tally.failed, Firing.passes, Firing.fails, Firing.finishes, action]

end Tally

namespace Session

variable {P : Type} [Probe P]

/-- What fires when commands are fired one after another, up to the first whose interrupt
fails. That one is the last. -/
def firedFrom (snapshot : Snapshot) : Session P → List Nat → List Firing
  | _, [] => []
  | session, index :: rest =>
      match session.bench.commands[index]? with
      | none => firedFrom snapshot session rest
      | some command =>
          ⟨command, snapshot⟩ :: match session.fire snapshot command with
            | (.error _, _) => []
            | (.ok (), session) => firedFrom snapshot session rest

/-- What a step of the session fires. -/
def fired (session : Session P) : List Firing :=
  match session.processor.state with
  | (.error _, _) => []
  | (.ok snapshot, processor) =>
      let queue := session.enroll snapshot
      firedFrom snapshot { session with processor, queue := Pending.countDown queue }
        (Pending.due queue)

/-- What fires in a run, in order. -/
def firings (limit : Option Nat) (session : Session P) : List Firing :=
  (session.steps limit).flatMap fired

theorem fire_counts (session : Session P) (snapshot : Snapshot) (command : Command)
    (past : List Firing) (counts : session.tally.Counts past) :
    (session.fire snapshot command).2.tally.Counts (past ++ [⟨command, snapshot⟩]) := by
  have recorded := counts.record ⟨command, snapshot⟩ session.processor.config.arch
  rw [fire]
  split
  next update interrupt =>
      rw [interrupt] at recorded
      exact recorded
  next outcome _ => exact recorded

theorem fire_all_counts (snapshot : Snapshot) (indices : List Nat) (session : Session P)
    (past : List Firing) (counts : session.tally.Counts past) :
    (fireAll snapshot session indices).2.tally.Counts
      (past ++ firedFrom snapshot session indices) := by
  induction indices generalizing session past with
  | nil => simpa only [fireAll, firedFrom, List.append_nil] using counts
  | cons index rest ih =>
      rw [fireAll, firedFrom]
      cases session.bench.commands[index]? with
      | none => exact ih session past counts
      | some command =>
          have first := session.fire_counts snapshot command past counts
          dsimp only
          generalize session.fire snapshot command = outcome at first ⊢
          obtain ⟨result, after⟩ := outcome
          cases result with
          | error error => exact first
          | ok =>
              have others := ih after _ first
              rwa [List.append_assoc] at others

theorem step_counts (session : Session P) (past : List Firing)
    (counts : session.tally.Counts past) :
    session.step.2.tally.Counts (past ++ session.fired) := by
  rw [step, fired]
  cases session.processor.state with
  | mk result processor =>
      cases result with
      | error error => simpa only [List.append_nil] using counts
      | ok snapshot => exact fire_all_counts snapshot _ _ past counts

variable {start : Nat} {session : Session P} {steps : List (Session P)}
  {ended : Except RunError Nat × Session P}

theorem Stepwise.counts (runs : Stepwise start session steps ended) (past : List Firing)
    (counts : session.tally.Counts past) :
    ended.2.tally.Counts (past ++ steps.flatMap fired) := by
  induction runs generalizing past with
  | stops => simpa only [List.flatMap_nil, List.append_nil] using counts
  | fails session after processor error failed =>
      have stepped := step_counts { session with processor } past counts
      rw [failed] at stepped
      simpa only [List.flatMap_singleton] using stepped
  | completes session after processor succeeded complete =>
      have stepped := step_counts { session with processor } past counts
      rw [succeeded] at stepped
      simpa only [List.flatMap_singleton] using stepped
  | goesOn session after processor later ended succeeded going rest ih =>
      have stepped := step_counts { session with processor } past counts
      rw [succeeded] at stepped
      rw [List.flatMap_cons, ← List.append_assoc]
      exact ih _ stepped

/-- The tally of a run has counted all that has fired in the run. -/
theorem run_counts (limit : Option Nat) (session : Session P) :
    (session.run limit).2.tally.Counts (session.firings limit) :=
  (run_stepwise limit session).counts [] Tally.counts_nil

theorem Stepwise.complete (runs : Stepwise start session steps ended) {cycles : Nat}
    (succeeded : ended.1 = .ok cycles) : ended.2.tally.complete = true := by
  induction runs with
  | stops => cases succeeded
  | fails => cases succeeded
  | completes session after processor stepped complete => exact complete
  | goesOn session after processor later ended stepped going rest ih => exact ih succeeded

/-- A run that succeeds has fired an end directive. -/
theorem run_finishes (limit : Option Nat) (session : Session P) (cycles : Nat)
    (succeeded : (session.run limit).1 = .ok cycles) :
    ∃ firing ∈ session.firings limit, firing.command.action = .finish := by
  have complete := (run_stepwise limit session).complete succeeded
  rw [(run_counts limit session).complete, List.any_eq_true] at complete
  obtain ⟨firing, member, finishes⟩ := complete
  exact ⟨firing, member, of_decide_eq_true finishes⟩

theorem Stepwise.failure (runs : Stepwise start session steps ended) {before : Session P}
    (member : before ∈ steps) {error : ProbeError} (failed : before.step.1 = .error error) :
    ended.1 = .error (.probe error) := by
  induction runs with
  | stops => cases member
  | fails session after processor error' failed' =>
      cases List.mem_singleton.mp member
      rw [failed'] at failed
      cases failed
      rfl
  | completes session after processor stepped complete =>
      cases List.mem_singleton.mp member
      rw [stepped] at failed
      cases failed
  | goesOn session after processor later ended stepped going rest ih =>
      rcases List.mem_cons.mp member with rfl | member
      · rw [stepped] at failed
        cases failed
      · exact ih member

/-- A run fails with the first step that fails, whatever has fired in it. -/
theorem run_failure (limit : Option Nat) (session before : Session P)
    (member : before ∈ session.steps limit) (error : ProbeError)
    (failed : before.step.1 = .error error) :
    (session.run limit).1 = .error (.probe error) :=
  (run_stepwise limit session).failure member failed

end Session

end CoreBench
