import CoreBench.Proofs.Standstill

/-!
What a run may use up. Only a clock cycle moves the counter of a core, and a run asks for
one only while its budget is not spent. So whatever the probe answers, a run ends inside
its budget, with at most one step in each of its cycles.
-/

namespace CoreBench

namespace Processor

variable {P : Type} [Probe P]

theorem strobe_cycles (path? : Option String) (processor : Processor P) :
    (processor.strobe path?).2.cycles = processor.cycles :=
  (strobe_still Probe.Lasting.trivial path? processor).cycles

theorem settle_cycles (processor : Processor P) : processor.settle.2.cycles = processor.cycles :=
  rfl

/-- A clock cycle is counted when it succeeds. -/
theorem run_cycle_cycles (processor next : Processor P) (result : Except ProbeError Unit)
    (ran : processor.runCycle = (result, next)) :
    next.cycles = match result with
      | .ok () => processor.cycles + 1
      | .error _ => processor.cycles := by
  rw [runCycle, pass] at ran
  cases advanced : Probe.advance processor.probe processor.config.timing.cycle with
  | mk outcome probe =>
      rw [advanced] at ran
      cases outcome <;> cases ran <;> rfl

end Processor

namespace Session

variable {P : Type} [Probe P]
variable {strobePath? : Option String} {start limit : Nat}

theorem step_cycles (session : Session P) :
    session.step.2.processor.cycles = session.processor.cycles :=
  (step_still Probe.Lasting.trivial session).cycles

theorem move_on_cycles {session after : Session P} (going : session.moveOn = .going after) :
    after.processor.cycles = session.processor.cycles + 1 := by
  rw [moveOn] at going
  cases ran : session.processor.runCycle with
  | mk result processor =>
      have cycles := Processor.run_cycle_cycles session.processor processor result ran
      rw [ran] at going
      cases result with
      | error error => cases going
      | ok =>
          cases going
          exact cycles

theorem limited_cycles {session after : Session P} (spent? : Option Nat)
    (going : (match spent? with
      | some limit => .stopped (.error (.cycleLimit limit)) session
      | none => session.moveOn) = Progress.going after) :
    after.processor.cycles = session.processor.cycles + 1 := by
  cases spent? with
  | some limit => cases going
  | none => exact move_on_cycles going

/-- A session goes on by one cycle. -/
theorem tick_cycles {budget : Option Nat} {session after : Session P}
    (going : tick strobePath? budget start session = .going after) :
    after.processor.cycles = session.processor.cycles + 1 := by
  have strobed := session.processor.strobe_cycles strobePath?
  rw [tick] at going
  generalize session.processor.strobe strobePath? = answer at strobed going
  obtain ⟨result, processor⟩ := answer
  rcases result with error | _ | _
  · cases going
  · exact (limited_cycles _ going).trans (congrArg (· + 1) strobed)
  · have kept := (step_cycles { session with processor }).trans strobed
    dsimp only at going
    generalize step { session with processor } = stepped at kept going
    obtain ⟨result, next⟩ := stepped
    cases result with
    | error error => cases going
    | ok =>
        dsimp only at going
        split at going
        · cases going
        · exact (limited_cycles _ going).trans (congrArg (· + 1) kept)

/-- How a session that began in the cycle `start` can end on a budget of `limit` cycles:
with the cycles it used, with the budget spent, or by an error of the probe. -/
inductive Ended (start limit : Nat) : Except RunError Nat → Session P → Prop where
  | complete (session : Session P) (inside : session.processor.cycles ≤ start + limit)
      (complete : session.tally.complete = true) :
      Ended start limit (.ok (session.processor.cycles - start)) session
  | spent (session : Session P) (all : session.processor.cycles = start + limit) :
      Ended start limit (.error (.cycleLimit limit)) session
  | failed (session : Session P) (error : ProbeError)
      (inside : session.processor.cycles ≤ start + limit) :
      Ended start limit (.error (.probe error)) session

/-- A session inside its budget moves on by one cycle or ends there. -/
inductive Ticked (start limit : Nat) (session : Session P) : Progress P → Prop where
  | going (after : Session P) (next : after.processor.cycles = session.processor.cycles + 1)
      (inside : session.processor.cycles < start + limit) :
      Ticked start limit session (.going after)
  | stopped (result : Except RunError Nat) (after : Session P)
      (same : after.processor.cycles = session.processor.cycles)
      (ended : Ended start limit result after) :
      Ticked start limit session (.stopped result after)

theorem move_on_ticked (before session : Session P)
    (same : session.processor.cycles = before.processor.cycles)
    (inside : session.processor.cycles < start + limit) :
    Ticked start limit before session.moveOn := by
  rw [moveOn]
  cases ran : session.processor.runCycle with
  | mk result processor =>
      have cycles := Processor.run_cycle_cycles session.processor processor result ran
      cases result with
      | error error =>
          refine .stopped _ _ (cycles.trans same) (.failed _ error ?_)
          simp only [cycles]
          omega
      | ok => exact .going _ (cycles.trans (congrArg (· + 1) same)) (same ▸ inside)

/-- The budget is checked after a step and while the core issues no instruction. Either
check lets the session move on exactly when cycles are left. -/
theorem tick_ticked (session : Session P) (fits : start + limit < wordLimit)
    (begun : start ≤ session.processor.cycles)
    (inside : session.processor.cycles ≤ start + limit) :
    Ticked start limit session (tick strobePath? (some limit) start session) := by
  have strobed := session.processor.strobe_cycles strobePath?
  rw [tick]
  split
  next error processor failed =>
      rw [failed] at strobed
      simp only at strobed
      exact .stopped _ _ strobed (.failed _ error (by simp only; omega))
  next processor low =>
      rw [low] at strobed
      simp only at strobed
      have uncut : min (start + limit) (wordLimit - 1) = start + limit := by omega
      rw [Option.filter_some, uncut]
      by_cases spent : start + limit ≤ processor.cycles
      · simp only [spent, decide_true, ↓reduceIte]
        exact .stopped _ _ strobed (.spent _ (by simp only; omega))
      · simp only [spent, decide_false, Bool.false_eq_true, ↓reduceIte]
        exact move_on_ticked session _ strobed (by simp only; omega)
  next processor high =>
      rw [high] at strobed
      have kept := (step_cycles { session with processor }).trans strobed
      split
      next error after failed =>
          rw [failed] at kept
          exact .stopped _ _ kept (.failed _ error (by simp only at kept; omega))
      next after stepped =>
          rw [stepped] at kept
          simp only at kept
          dsimp only
          by_cases complete : after.tally.complete = true
          · simp only [complete, ↓reduceIte]
            exact .stopped _ _ kept (.complete after (by omega) complete)
          · rw [Option.filter_some]
            by_cases spent : limit ≤ after.processor.cycles - start
            · simp only [complete, spent, decide_true, Bool.false_eq_true, ↓reduceIte]
              exact .stopped _ _ kept (.spent after (by omega))
            · simp only [complete, spent, decide_false, Bool.false_eq_true, ↓reduceIte]
              exact move_on_ticked session after kept (by omega)

theorem loop_steps_length (strobePath? : Option String) (start limit fuel : Nat)
    (session : Session P) :
    (loopSteps strobePath? (some limit) start (fuel + 1) session).length ≤
      1 + match tick strobePath? (some limit) start session with
        | .stopped _ _ => 0
        | .going after => (loopSteps strobePath? (some limit) start fuel after).length := by
  rw [loopSteps]
  cases session.processor.strobe strobePath? with
  | mk sampled processor =>
      rcases sampled with _ | _ | _ <;>
        cases tick strobePath? (some limit) start session <;>
          simp [Nat.add_comm]

/-- From any cycle of the budget on, a loop ends inside it. The induction is on the fuel,
of which there is more than the budget has cycles left. -/
theorem loop_ended (strobePath? : Option String) (fuel : Nat) (session : Session P)
    (fits : start + limit < wordLimit) (begun : start ≤ session.processor.cycles)
    (inside : session.processor.cycles ≤ start + limit)
    (enough : start + limit < session.processor.cycles + fuel) :
    let ended := loop strobePath? (some limit) start fuel session
    Ended start limit ended.1 ended.2 ∧ session.processor.cycles ≤ ended.2.processor.cycles ∧
      (loopSteps strobePath? (some limit) start fuel session).length ≤
        start + limit + 1 - session.processor.cycles := by
  induction fuel generalizing session with
  | zero => omega
  | succ fuel ih =>
      have ticked : Ticked start limit session (tick strobePath? (some limit) start session) :=
        tick_ticked session fits begun inside
      have steps := loop_steps_length strobePath? start limit fuel session
      dsimp only
      rw [loop]
      generalize tick strobePath? (some limit) start session = progress at ticked steps ⊢
      cases ticked with
      | going after next left =>
          obtain ⟨ended, later, rest⟩ := ih after (by omega) (by omega) (by omega)
          exact ⟨ended, by dsimp only; omega, by dsimp only at steps; omega⟩
      | stopped result after same ended =>
          exact ⟨ended, Nat.le_of_eq same.symm, by dsimp only at steps; omega⟩

theorem run_ended (session : Session P) (limit : Nat)
    (fits : session.processor.cycles + limit < wordLimit) :
    let ran := session.run (some limit)
    Ended session.processor.cycles limit ran.1 ran.2 ∧
      session.processor.cycles ≤ ran.2.processor.cycles ∧
      (session.steps (some limit)).length ≤ limit + 1 := by
  have kept := session.processor.settle_cycles
  simp only [run, Session.steps, reset, clear]
  cases settled : session.processor.settle with
  | mk result processor =>
      rw [settled] at kept
      dsimp only at kept
      cases result with
      | error error =>
          exact ⟨.failed _ error (by dsimp only; omega), Nat.le_of_eq kept.symm, Nat.zero_le _⟩
      | ok =>
          obtain ⟨ended, later, steps⟩ :=
            loop_ended processor.config.wiring.strobePath? (wordLimit - processor.cycles)
              (Session.mk session.bench processor {} []) fits (by dsimp only; omega)
              (by dsimp only; omega) (by dsimp only; omega)
          dsimp only at later steps
          exact ⟨ended, by dsimp only; omega, by dsimp only; omega⟩

/-- On any probe a run stays inside its budget. Its steps are at most one more than it has
cycles; when it succeeds it tells the cycles it used and the end was reached, and when it
reaches its limit all of them are used. -/
theorem run_within_budget (session : Session P) (limit : Nat)
    (fits : session.processor.cycles + limit < wordLimit) :
    let start := session.processor.cycles
    let ran := session.run (some limit)
    let last := ran.2.processor.cycles
    Stepwise start session.reset.clear (session.steps (some limit)) ran ∧
      (session.steps (some limit)).length ≤ limit + 1 ∧ ran.1 ≠ .error .counterFull ∧
      start ≤ last ∧ last ≤ start + limit ∧
      (∀ used, ran.1 = .ok used →
        used = last - start ∧ used ≤ limit ∧ ran.2.tally.complete = true) ∧
      ∀ bound, ran.1 = .error (.cycleLimit bound) → bound = limit ∧ last = start + limit := by
  obtain ⟨ended, later, steps⟩ := session.run_ended limit fits
  have stepwise := session.run_stepwise (some limit)
  dsimp only
  generalize session.run (some limit) = ran at ended later stepwise ⊢
  obtain ⟨result, final⟩ := ran
  dsimp only at ended later ⊢
  refine ⟨stepwise, steps, ?_, later, ?_⟩
  · cases ended <;> nofun
  · cases ended with
    | complete _ inside complete =>
        refine ⟨inside, ?_, by nofun⟩
        rintro used ⟨⟩
        exact ⟨rfl, by omega, complete⟩
    | spent _ all =>
        refine ⟨Nat.le_of_eq all, by nofun, ?_⟩
        rintro bound ⟨⟩
        exact ⟨rfl, all⟩
    | failed _ error inside => exact ⟨inside, by nofun, by nofun⟩

/-- A core that has seen five cycles and issues an instruction in the second one from
now on, but none after it. -/
def idling : Session Stimulus where
  bench := { commands := [⟨.finish, 0, 1, "", 2⟩] }
  processor :=
    { probe := Stimulus.schedule (Stimulus.schedule
        { signals := [("pc", Bus.ofNat 0 8), ("issue", Bus.ofNat 0 1)] }
        ⟨11, "issue", Bus.ofNat 1 1⟩) ⟨21, "issue", Bus.ofNat 0 1⟩
      config :=
        { arch := { generalCount := 0, specialCount := 0 }
          wiring := { pc := "pc", strobe := some "issue", reversed := false } }
      cycles := 5 }

/-- The end waits for a second step that never comes, and the run waits for it until the
budget is used up. -/
theorem idling_within_budget :
    idling.processor.cycles + 3 < wordLimit ∧ (idling.steps (some 3)).length ≤ 4 ∧
      (idling.run (some 3)).1 = .error (.cycleLimit 3) ∧
      (idling.run (some 3)).2.processor.cycles = 8 := by
  have fits : idling.processor.cycles + 3 < wordLimit := by decide
  have limited : (idling.run (some 3)).1 = .error (.cycleLimit 3) := by rfl
  obtain ⟨_, steps, _, _, _, _, spent⟩ := run_within_budget idling 3 fits
  exact ⟨fits, steps, limited, (spent 3 limited).2⟩

end Session

end CoreBench
