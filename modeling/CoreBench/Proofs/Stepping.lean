import CoreBench.Proofs.Timetable

/-!
A run is a chain of steps. Between two of them, and in front of the first one, it
changes nothing but the core, so the timetable of the commands holds in every step of
every run.
-/

namespace CoreBench

namespace Session

variable {P : Type}

/-- A session stops with an error or goes on, in both cases with another core. -/
inductive Pauses (session : Session P) : Progress P → Prop where
  | stops (processor : Processor P) (error : RunError) :
      Pauses session (.stopped (.error error) { session with processor })
  | goesOn (processor : Processor P) : Pauses session (.going { session with processor })

theorem Pauses.of_core {session : Session P} {processor : Processor P} {progress : Progress P}
    (pauses : Pauses { session with processor } progress) : session.Pauses progress := by
  cases pauses with
  | stops last error => exact .stops last error
  | goesOn last => exact .goesOn last

/-- A session that goes on or has stopped. -/
def Progress.present : Progress P → Session P
  | .going session => session
  | .stopped _ session => session

theorem Pauses.tally {session : Session P} {progress : Progress P}
    (pauses : session.Pauses progress) : progress.present.tally = session.tally := by
  cases pauses <;> rfl

variable [Probe P]
variable {strobePath? : Option String} {limit : Option Nat} {start : Nat}

def loopSteps (strobePath? : Option String) (limit : Option Nat) (start : Nat) :
    Nat → Session P → List (Session P)
  | 0, _ => []
  | fuel + 1, session =>
      let here := match session.processor.strobe strobePath? with
        | (.ok true, processor) => [{ session with processor }]
        | _ => []
      match tick strobePath? limit start session with
      | .stopped _ _ => here
      | .going session => here ++ loopSteps strobePath? limit start fuel session

/-- The sessions in front of the steps of a run, in order. -/
def steps (limit : Option Nat) (session : Session P) : List (Session P) :=
  let session := session.reset.clear
  match session.processor.settle with
  | (.error _, _) => []
  | (.ok (), processor) =>
      loopSteps processor.config.wiring.strobePath? limit session.processor.cycles
        (wordLimit - processor.cycles) { session with processor }

def now (session : Session P) : Nat :=
  Probe.now session.processor.probe

/-- How a session ends after steps from some sessions. In front of each step, and
behind the last one, it may do anything with the core. -/
inductive Stepwise (start : Nat) :
    Session P → List (Session P) → Except RunError Nat × Session P → Prop where
  | stops (session : Session P) (processor : Processor P) (error : RunError) :
      Stepwise start session [] (.error error, { session with processor })
  | fails (session after : Session P) (processor : Processor P) (error : ProbeError)
      (failed : step { session with processor } = (.error error, after)) :
      Stepwise start session [{ session with processor }] (.error (.probe error), after)
  | completes (session after : Session P) (processor : Processor P)
      (stepped : step { session with processor } = (.ok (), after))
      (complete : after.tally.complete = true) :
      Stepwise start session [{ session with processor }]
        (.ok (after.processor.cycles - start), after)
  | goesOn (session after : Session P) (processor : Processor P) (later : List (Session P))
      (ended : Except RunError Nat × Session P)
      (stepped : step { session with processor } = (.ok (), after))
      (going : after.tally.complete = false) (rest : Stepwise start after later ended) :
      Stepwise start session ({ session with processor } :: later) ended

theorem Stepwise.of_core {session : Session P} {processor : Processor P}
    {steps : List (Session P)} {ended : Except RunError Nat × Session P}
    (runs : Stepwise start { session with processor } steps ended) :
    Stepwise start session steps ended := by
  cases runs with
  | stops _ last error => exact .stops session last error
  | fails _ _ last error failed => exact .fails session _ last error failed
  | completes _ _ last stepped complete => exact .completes session _ last stepped complete
  | goesOn _ _ last _ _ stepped going rest => exact .goesOn session _ last _ _ stepped going rest

theorem move_on_pauses (session : Session P) : session.Pauses session.moveOn := by
  rw [moveOn]
  cases session.processor.runCycle with
  | mk result processor =>
      cases result with
      | error error => exact .stops processor (.probe error)
      | ok => exact .goesOn processor

theorem limit_pauses (session : Session P) (spent? : Option Nat) :
    session.Pauses (match spent? with
      | some limit => .stopped (.error (.cycleLimit limit)) session
      | none => session.moveOn) := by
  cases spent? with
  | some limit => exact .stops session.processor (.cycleLimit limit)
  | none => exact session.move_on_pauses

theorem tick_waits (session : Session P) (processor : Processor P) (result : Except ProbeError Bool)
    (strobed : session.processor.strobe strobePath? = (result, processor))
    (waits : result ≠ .ok true) :
    session.Pauses (tick strobePath? limit start session) := by
  rw [tick, strobed]
  match result with
  | .error error => exact .stops processor (.probe error)
  | .ok false => exact (limit_pauses { session with processor } _).of_core
  | .ok true => exact absurd rfl waits

/-- What a loop does behind a pause comes after the steps in front of it. -/
theorem Pauses.stepwise {before session : Session P} {progress : Progress P} {fuel : Nat}
    (front : List (Session P))
    (leads : ∀ later ended, Stepwise start session later ended →
      Stepwise start before (front ++ later) ended)
    (rest : ∀ after : Session P,
      Stepwise start after (loopSteps strobePath? limit start fuel after)
        (loop strobePath? limit start fuel after)) :
    session.Pauses progress → Stepwise start before
      (match progress with
        | .stopped _ _ => front
        | .going after => front ++ loopSteps strobePath? limit start fuel after)
      (match progress with
        | .stopped result after => (result, after)
        | .going after => loop strobePath? limit start fuel after) := by
  intro pauses
  cases pauses with
  | stops processor error =>
      have stopped := leads [] _ (.stops session processor error)
      rw [List.append_nil] at stopped
      exact stopped
  | goesOn processor => exact leads _ _ (rest { session with processor }).of_core

/-- Every cycle is a step with a pause behind it, the last step, or only a pause. -/
theorem loop_stepwise (fuel : Nat) (session : Session P) :
    Stepwise start session (loopSteps strobePath? limit start fuel session)
      (loop strobePath? limit start fuel session) := by
  induction fuel generalizing session with
  | zero => exact .stops session session.processor .counterFull
  | succ fuel ih =>
      rw [loop, loopSteps]
      match strobed : session.processor.strobe strobePath? with
      | (.error error, processor) =>
          have pauses : session.Pauses (tick strobePath? limit start session) :=
            tick_waits session processor _ strobed (by nofun)
          exact Pauses.stepwise [] (fun _ _ runs => runs) ih pauses
      | (.ok false, processor) =>
          have pauses : session.Pauses (tick strobePath? limit start session) :=
            tick_waits session processor _ strobed (by nofun)
          exact Pauses.stepwise [] (fun _ _ runs => runs) ih pauses
      | (.ok true, processor) =>
          simp only [tick, strobed]
          match stepped : step { session with processor } with
          | (.error error, after) => exact .fails session after processor error stepped
          | (.ok (), after) =>
              cases complete : after.tally.complete with
              | true =>
                  simp only [complete, ↓reduceIte]
                  exact .completes session after processor stepped complete
              | false =>
                  simp only [complete, Bool.false_eq_true, ↓reduceIte]
                  have pauses := limit_pauses after (limit.filter fun limit =>
                    limit ≤ after.processor.cycles - start)
                  exact Pauses.stepwise [{ session with processor }] (fun later ended runs =>
                    .goesOn session after processor later ended stepped complete runs) ih pauses

theorem run_stepwise (limit : Option Nat) (session : Session P) :
    Stepwise session.processor.cycles session.reset.clear (session.steps limit)
      (session.run limit) := by
  rw [run, steps]
  have same : session.reset.clear.processor = session.processor := rfl
  simp only [same]
  cases session.processor.settle with
  | mk result processor =>
      cases result with
      | error error => exact .stops session.reset.clear processor (.probe error)
      | ok => exact (loop_stepwise _ { session.reset.clear with processor }).of_core

theorem Stepwise.queue {session : Session P} {steps : List (Session P)}
    {ended : Except RunError Nat × Session P} (runs : Stepwise start session steps ended)
    (addresses : List (Option Nat))
    (waiting : session.queue =
      Enrollment.queue (Enrollment.ofSteps session.bench.commands addresses) addresses.length)
    (place : Nat) (inside : place < steps.length) :
    steps[place].queue = Enrollment.queue
      (Enrollment.ofSteps session.bench.commands (addresses ++ (steps.take place).map address?))
      (addresses.length + place) := by
  induction runs generalizing addresses place with
  | stops => simp at inside
  | fails session after processor error failed =>
      obtain rfl : place = 0 := by simpa using inside
      simpa using waiting
  | completes session after processor stepped complete =>
      obtain rfl : place = 0 := by simpa using inside
      simpa using waiting
  | goesOn session after processor later ended stepped going rest ih =>
      -- The steps behind this one see its address at the end of those before them.
      cases place with
      | zero => simpa using waiting
      | succ place =>
          have next := step_queue { session with processor } after addresses waiting stepped
          obtain ⟨snapshot, last, sampled⟩ := state_of_step stepped
          have bench : after.bench = session.bench :=
            ((step_ok_iff _ after addresses snapshot last sampled waiting).mp stepped).bench
          have queue := ih (addresses ++ [address? { session with processor }])
            (by rw [bench, List.length_append]; exact next) place (by simpa using inside)
          rw [bench] at queue
          simpa [Nat.add_assoc, Nat.add_comm 1] using queue

/-- The timetable holds in every step of a run: what waits in front of it is what the
steps before it enrolled and did not fire yet. -/
theorem run_waits (limit : Option Nat) (session : Session P) (place : Nat)
    (inside : place < (session.steps limit).length) :
    (session.steps limit)[place].queue = Enrollment.queue
      (Enrollment.ofSteps session.bench.commands
        (((session.steps limit).take place).map address?)) place := by
  have queue := (run_stepwise limit session).queue [] rfl place inside
  have same : session.reset.clear.bench = session.bench := rfl
  simpa only [same, List.nil_append, List.length_nil, Nat.zero_add] using queue

end Session

end CoreBench
