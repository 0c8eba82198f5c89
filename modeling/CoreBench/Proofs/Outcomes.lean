import CoreBench.Proofs.Simultaneous

/-!
The outcomes of a run. What fires in a step has one outcome for each command, in order, and the
tally of a run is the record of the outcomes of its steps. So it has counted the comparisons
that hold, and the messages of the others follow one another as the others do.
-/

namespace CoreBench

namespace Session

variable {P : Type} [Probe P]

/-- What comes of the commands that a step of the session fires. -/
def outcomes (session : Session P) : List Outcome :=
  session.fired.map fun firing =>
    firing.command.execute firing.snapshot session.processor.config.arch

/-- What comes of all that fires in a run. -/
def allOutcomes (limit : Option Nat) (session : Session P) : List Outcome :=
  (session.steps limit).flatMap outcomes

theorem fire_record (session : Session P) (snapshot : Snapshot) (command : Command) :
    (session.fire snapshot command).2.tally =
      session.tally.record (command.execute snapshot session.processor.config.arch) := by
  rw [fire]
  cases command.execute snapshot session.processor.config.arch <;> rfl

theorem fire_all_record (snapshot : Snapshot) (indices : List Nat) (session : Session P) :
    (fireAll snapshot session indices).2.tally =
      ((firedFrom snapshot session indices).map fun firing =>
        firing.command.execute firing.snapshot session.processor.config.arch).foldl
          Tally.record session.tally := by
  induction indices generalizing session with
  | nil => rfl
  | cons index rest ih =>
      rw [fireAll, firedFrom]
      cases session.bench.commands[index]? with
      | none => exact ih session
      | some command =>
          have first := session.fire_record snapshot command
          have kept := (fire_still .trivial session snapshot command).config
          dsimp only
          generalize session.fire snapshot command = outcome at first kept ⊢
          obtain ⟨result, after⟩ := outcome
          cases result with
          | error error => exact first
          | ok =>
              have others := ih after
              dsimp only at first kept others ⊢
              rw [others, first, kept]
              rfl

theorem step_record (session : Session P) :
    session.step.2.tally = session.outcomes.foldl Tally.record session.tally := by
  rw [step, outcomes, fired]
  have kept := (Processor.state_still Probe.Lasting.trivial.read session.processor).config
  cases sampled : session.processor.state with
  | mk result processor =>
      rw [sampled] at kept
      cases result with
      | error error => rfl
      | ok snapshot =>
          have fired := fire_all_record snapshot (Pending.due (session.enroll snapshot))
            { session with processor, queue := Pending.countDown (session.enroll snapshot) }
          dsimp only at kept fired ⊢
          rw [fired, kept]

variable {start : Nat} {session : Session P} {steps : List (Session P)}
  {ended : Except RunError Nat × Session P}

theorem Stepwise.record (runs : Stepwise start session steps ended) :
    ended.2.tally = (steps.flatMap outcomes).foldl Tally.record session.tally := by
  induction runs with
  | stops => rfl
  | fails session after processor error failed =>
      have stepped := step_record { session with processor }
      rw [failed] at stepped
      simpa only [List.flatMap_singleton] using stepped
  | completes session after processor succeeded complete =>
      have stepped := step_record { session with processor }
      rw [succeeded] at stepped
      simpa only [List.flatMap_singleton] using stepped
  | goesOn session after processor later ended succeeded going rest ih =>
      have stepped := step_record { session with processor }
      rw [succeeded] at stepped
      dsimp only at stepped
      rw [List.flatMap_cons, List.foldl_append, ih, stepped]

theorem run_record (limit : Option Nat) (session : Session P) :
    (session.run limit).2.tally = (session.allOutcomes limit).foldl Tally.record {} :=
  (run_stepwise limit session).record

end Session

end CoreBench
