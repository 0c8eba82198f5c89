import CoreBench.Proofs.Stepping
import CoreBench.Proofs.Tracking

/-!
A run on a stimulus does what the forecast says: it takes its steps in the valid
cycles, stops in the cycle of the first step that ends it or at its limit, and drives
what the interrupts of its steps call for.
-/

namespace CoreBench

namespace Forecast

variable {forecast : Forecast} {cycle limit : Nat}

def validBefore (forecast : Forecast) (cycle : Nat) : List Nat :=
  (List.range cycle).filter forecast.valid

theorem valid_before_succ (forecast : Forecast) (cycle : Nat) :
    forecast.validBefore (cycle + 1) =
      forecast.validBefore cycle ++ if forecast.valid cycle then [cycle] else [] := by
  rw [validBefore, List.range_succ, List.filter_append, ← validBefore]
  cases valid : forecast.valid cycle <;> simp [valid]

theorem valid_before_prefix (forecast : Forecast) {early late : Nat} (order : early ≤ late) :
    forecast.validBefore early <+: forecast.validBefore late := by
  induction late, order using Nat.le_induction with
  | base => exact List.prefix_rfl
  | succ late _ ih =>
      rw [valid_before_succ]
      exact ih.trans (List.prefix_append _ _)

/-- Which steps a run with a limit takes, by their cycles, and how it stops. -/
inductive Concludes (forecast : Forecast) (limit : Nat) :
    List Nat → Except RunError Nat → Prop where
  | ended (steps : List Nat) (cycle : Nat)
      (taken : steps ++ [cycle] <+: forecast.validCycles limit)
      (ends : forecast.Ends (steps ++ [cycle]) steps.length)
      (first : ∀ step < steps.length, ¬ forecast.Ends steps step) :
      Concludes forecast limit (steps ++ [cycle]) (.ok cycle)
  | limited
      (never : ∀ step < (forecast.validCycles limit).length,
        ¬ forecast.Ends (forecast.validCycles limit) step) :
      Concludes forecast limit (forecast.validCycles limit) (.error (.cycleLimit limit))

theorem limit_lt (admits : forecast.Admits limit) : limit < wordLimit := by
  have fits := admits.fits
  have grows := Nat.mul_le_mul_left limit admits.usable.cycle_pos
  rw [time] at fits
  omega

theorem move_on (admits : forecast.Admits limit) (steps : List Nat) (session : Session Stimulus)
    (room : cycle < limit) (through : forecast.Through cycle steps session) :
    ∃ after, session.moveOn = .going after ∧ forecast.At (cycle + 1) steps after := by
  have fits : forecast.time (cycle + 1) < wordLimit :=
    Nat.lt_of_le_of_lt (forecast.time_mono room) admits.fits
  obtain ⟨next, cycled, tracks, unsampled⟩ := tracks_run_cycle through.tracks fits
  refine ⟨{ session with processor := next }, ?_, ?_⟩
  · rw [Session.moveOn, cycled]
  · exact ⟨⟨through.bench, tracks, through.queue, through.going⟩, unsampled⟩

theorem tick_ends (admits : forecast.Admits limit) (steps : List Nat) (session : Session Stimulus)
    (here : forecast.At cycle steps session) (valid : forecast.valid cycle = true)
    (ends : forecast.Ends (steps ++ [cycle]) steps.length) :
    ∃ after, session.tick forecast.config.wiring.strobePath? (some limit) 0 =
        .stopped (.ok cycle) after ∧
      after.processor.probe.writes =
        forecast.stimulus.writes ++ forecast.writes (steps ++ [cycle]) := by
  have strobe := tracks_strobe here.tracks admits
  obtain ⟨after, stepped, _, tracks, _, complete⟩ := at_step admits steps session here
  have used : after.processor.cycles - 0 = cycle := tracks.cycles
  refine ⟨after, ?_, tracks.writes⟩
  simp only [Session.tick, strobe, valid, stepped, complete.mpr ends, used, ↓reduceIte]

/-- Every other cycle leads on to the next one, unless the limit is reached. -/
theorem tick_goes_on (admits : forecast.Admits limit) (steps : List Nat)
    (session : Session Stimulus) (here : forecast.At cycle steps session)
    (open' : forecast.valid cycle = true → ¬ forecast.Ends (steps ++ [cycle]) steps.length) :
    ∃ between,
      forecast.Through cycle (steps ++ if forecast.valid cycle then [cycle] else []) between ∧
      session.tick forecast.config.wiring.strobePath? (some limit) 0 =
        if limit ≤ cycle then .stopped (.error (.cycleLimit limit)) between
        else between.moveOn := by
  have strobe := tracks_strobe here.tracks admits
  have small := limit_lt admits
  cases valid : forecast.valid cycle with
  | false =>
      refine ⟨session, by simpa using here.toThrough, ?_⟩
      -- The limit lies below the times, so the counter does not cut it.
      have same : min (0 + limit) (wordLimit - 1) = limit := by omega
      simp only [Session.tick, strobe, valid, here.tracks.cycles, Option.filter_some, same,
        decide_eq_true_eq]
      by_cases spent : limit ≤ cycle
      · simp only [spent, ↓reduceIte]
      · simp only [spent, ↓reduceIte]
  | true =>
      obtain ⟨after, stepped, bench, tracks, queue, complete⟩ := at_step admits steps session here
      have going : after.tally.complete = false := by
        apply Bool.eq_false_iff.mpr
        intro ended
        exact open' valid (complete.mp ended)
      refine ⟨after, ⟨bench, tracks, ?_, going⟩, ?_⟩
      · rw [queue, if_pos rfl, List.length_append, List.length_singleton]
      · have used : after.processor.cycles - 0 = cycle := tracks.cycles
        simp only [Session.tick, strobe, valid, stepped, going, used, Option.filter_some,
          decide_eq_true_eq, Bool.false_eq_true, ↓reduceIte]
        by_cases spent : limit ≤ cycle
        · simp only [spent, ↓reduceIte]
        · simp only [spent, ↓reduceIte]

/-- No step in front of a cycle has ended the run. -/
def Open (forecast : Forecast) (cycle : Nat) : Prop :=
  ∀ step < (forecast.validBefore cycle).length,
    ¬ forecast.Ends (forecast.validBefore cycle) step

theorem open_succ (open' : forecast.Open cycle)
    (here : forecast.valid cycle = true →
      ¬ forecast.Ends (forecast.validBefore cycle ++ [cycle]) (forecast.validBefore cycle).length) :
    forecast.Open (cycle + 1) := by
  intro step bound
  rw [valid_before_succ] at bound ⊢
  cases valid : forecast.valid cycle with
  | false =>
      simp only [valid, Bool.false_eq_true, ↓reduceIte, List.append_nil] at bound ⊢
      exact open' step bound
  | true =>
      simp only [valid, ↓reduceIte, List.length_append, List.length_singleton] at bound ⊢
      by_cases last : step = (forecast.validBefore cycle).length
      · rw [last]
        exact here valid
      · have early : step < (forecast.validBefore cycle).length := by omega
        rw [forecast.ends_append _ _ _ early]
        exact open' step early

theorem loop_steps_succ (admits : forecast.Admits limit) (fuel : Nat) (session : Session Stimulus)
    (steps : List Nat) (here : forecast.At cycle steps session) :
    (Session.loopSteps forecast.config.wiring.strobePath? (some limit) 0 (fuel + 1) session).map
        Session.now =
      (if forecast.valid cycle then [cycle] else []).map forecast.time ++
        match session.tick forecast.config.wiring.strobePath? (some limit) 0 with
        | .stopped _ _ => []
        | .going session =>
            (Session.loopSteps forecast.config.wiring.strobePath? (some limit) 0 fuel session).map
              Session.now := by
  have now : session.now = forecast.time cycle := here.tracks.now
  rw [Session.loopSteps]
  simp only [tracks_strobe here.tracks admits]
  cases forecast.valid cycle with
  | false => cases session.tick forecast.config.wiring.strobePath? (some limit) 0 <;> rfl
  | true =>
      cases session.tick forecast.config.wiring.strobePath? (some limit) 0 with
      | stopped => simp [now]
      | going => simp [now]

/-- From any cycle on, a loop takes the steps of the forecast. The induction is on the
fuel; what carries it is that no step up to here has ended the bench. -/
theorem loop_concludes (admits : forecast.Admits limit) (fuel : Nat) (session : Session Stimulus)
    (here : forecast.At cycle (forecast.validBefore cycle) session) (bound : cycle ≤ limit)
    (enough : limit < cycle + fuel) (open' : forecast.Open cycle) :
    ∃ later result final,
      Session.loop forecast.config.wiring.strobePath? (some limit) 0 fuel session =
        (result, final) ∧
      (Session.loopSteps forecast.config.wiring.strobePath? (some limit) 0 fuel session).map
          Session.now = later.map forecast.time ∧
      forecast.Concludes limit (forecast.validBefore cycle ++ later) result ∧
      final.processor.probe.writes =
        forecast.stimulus.writes ++ forecast.writes (forecast.validBefore cycle ++ later) := by
  induction fuel generalizing cycle session with
  | zero => omega
  | succ fuel ih =>
      rw [loop_steps_succ admits fuel session _ here, Session.loop]
      by_cases ended : forecast.valid cycle = true ∧
          forecast.Ends (forecast.validBefore cycle ++ [cycle])
            (forecast.validBefore cycle).length
      · obtain ⟨valid, ends⟩ := ended
        obtain ⟨after, ticked, writes⟩ := tick_ends admits _ session here valid ends
        have taken : forecast.validBefore cycle ++ [cycle] <+: forecast.validCycles limit := by
          have inside := forecast.valid_before_prefix (Nat.succ_le_succ bound)
          rw [valid_before_succ, if_pos valid] at inside
          exact inside
        refine ⟨[cycle], .ok cycle, after, by rw [ticked], ?_, ?_, writes⟩
        · simp only [ticked, valid, ↓reduceIte, List.append_nil]
        · exact .ended _ _ taken ends open'
      · have on : forecast.valid cycle = true →
            ¬ forecast.Ends (forecast.validBefore cycle ++ [cycle])
              (forecast.validBefore cycle).length :=
          fun valid ends => ended ⟨valid, ends⟩
        obtain ⟨between, through, ticked⟩ := tick_goes_on admits _ session here on
        have opened := open_succ open' on
        rw [← valid_before_succ] at through
        by_cases spent : limit ≤ cycle
        · obtain rfl : cycle = limit := by omega
          rw [if_pos spent] at ticked
          refine ⟨if forecast.valid cycle then [cycle] else [], _, between, by rw [ticked], ?_, ?_,
            ?_⟩
          · simp only [ticked, List.append_nil]
          · rw [← valid_before_succ]
            exact .limited opened
          · rw [← valid_before_succ]
            exact through.tracks.writes
        · obtain ⟨next, moved, at'⟩ := move_on admits _ between (by omega) through
          rw [if_neg spent, moved] at ticked
          obtain ⟨later, result, final, looped, stepped, concludes, writes⟩ :=
            ih next at' (by omega) (by omega) opened
          refine ⟨(if forecast.valid cycle then [cycle] else []) ++ later, result, final, ?_, ?_,
            ?_, ?_⟩
          · rw [ticked]
            exact looped
          · simp only [ticked, stepped, List.map_append]
          · rw [← List.append_assoc, ← valid_before_succ]
            exact concludes
          · rw [← List.append_assoc, ← valid_before_succ]
            exact writes

theorem run_concludes (admits : forecast.Admits limit) (tally : Tally) (queue : List Pending) :
    let session : Session Stimulus :=
      ⟨forecast.bench, { probe := forecast.stimulus, config := forecast.config }, tally, queue⟩
    ∃ taken, forecast.Concludes limit taken (session.run (some limit)).1 ∧
      (session.steps (some limit)).map Session.now = taken.map forecast.time ∧
      (session.run (some limit)).2.processor.probe.writes =
        forecast.stimulus.writes ++ forecast.writes taken := by
  intro session
  have fits : forecast.time 0 < wordLimit :=
    Nat.lt_of_le_of_lt (forecast.time_mono (Nat.zero_le limit)) admits.fits
  obtain ⟨next, settled, tracks, unsampled⟩ := forecast.tracks_settle fits
  have here : forecast.At 0 (forecast.validBefore 0)
      ⟨forecast.bench, next, {}, []⟩ :=
    ⟨⟨rfl, tracks, rfl, rfl⟩, unsampled⟩
  have small := limit_lt admits
  obtain ⟨later, result, final, looped, stepped, concludes, writes⟩ :=
    loop_concludes admits wordLimit _ here (Nat.zero_le limit) (by omega)
      (fun step bound => absurd bound (Nat.not_lt_zero step))
  have cycles : wordLimit - next.cycles = wordLimit := by rw [tracks.cycles, Nat.sub_zero]
  have ran : session.run (some limit) = (result, final) := by
    simp only [session, Session.run, Session.reset, Session.clear, settled, tracks.config, cycles]
    exact looped
  have steps : session.steps (some limit) =
      Session.loopSteps forecast.config.wiring.strobePath? (some limit) 0 wordLimit
        ⟨forecast.bench, next, {}, []⟩ := by
    simp only [session, Session.steps, Session.reset, Session.clear, settled, tracks.config, cycles]
  refine ⟨later, ?_, ?_, ?_⟩
  · rw [ran]
    exact concludes
  · rw [steps]
    exact stepped
  · rw [ran]
    exact writes

/-- Whether a step ends the run does not depend on the cycles behind it. -/
theorem ended_among (steps cycles : List Nat) (cycle : Nat) (taken : steps ++ [cycle] <+: cycles)
    (ends : forecast.Ends (steps ++ [cycle]) steps.length)
    (first : ∀ step < steps.length, ¬ forecast.Ends steps step) :
    forecast.Ends cycles steps.length ∧ ∀ step < steps.length, ¬ forecast.Ends cycles step := by
  obtain ⟨rest, rfl⟩ := taken
  have size : steps.length < (steps ++ [cycle]).length := by simp
  constructor
  · exact (forecast.ends_append _ rest _ size).mpr ends
  · intro step early ended
    have among := (forecast.ends_append _ rest step (by omega)).mp ended
    exact first step early ((forecast.ends_append steps [cycle] step early).mp among)

/-- A run takes its steps at the times of the valid cycles. It succeeds with the cycle
of the first step in which an end directive fires, and reaches its limit if there is
none up to there. On the interrupt lines it drives what the interrupts that fire in
its steps call for, in the order of their firing and at the times of their steps. -/
theorem run_as_foreseen (forecast : Forecast) (limit : Nat) (tally : Tally) (queue : List Pending)
    (admits : forecast.Admits limit) :
    let session : Session Stimulus :=
      ⟨forecast.bench, { probe := forecast.stimulus, config := forecast.config }, tally, queue⟩
    let cycles := forecast.validCycles limit
    let ran := session.run (some limit)
    let times := (session.steps (some limit)).map Session.now
    (∀ last (inside : last < cycles.length), forecast.Ends cycles last →
      (∀ step < last, ¬ forecast.Ends cycles step) →
        ran.1 = .ok cycles[last] ∧ times = (cycles.take (last + 1)).map forecast.time ∧
          ran.2.processor.probe.writes =
            forecast.stimulus.writes ++ forecast.writes (cycles.take (last + 1))) ∧
      ((∀ step < cycles.length, ¬ forecast.Ends cycles step) →
        ran.1 = .error (.cycleLimit limit) ∧ times = cycles.map forecast.time ∧
          ran.2.processor.probe.writes =
            forecast.stimulus.writes ++ forecast.writes cycles) := by
  intro session cycles ran times
  obtain ⟨taken, concludes, stepped, writes⟩ := run_concludes admits tally queue
  change forecast.Concludes limit taken ran.1 at concludes
  generalize ended : ran.1 = result at concludes ⊢
  -- Of the two cases of the claim the way the run concludes fits one and excludes the other.
  cases concludes with
  | ended steps cycle inside ends first =>
      obtain ⟨here, before⟩ := ended_among steps cycles cycle inside ends first
      obtain ⟨rest, whole⟩ := inside
      have present : steps.length < cycles.length := by
        simp [cycles, ← whole]
      constructor
      · intro last bound ends' first'
        -- There is only one first step that ends the run.
        obtain rfl : last = steps.length := by
          rcases Nat.lt_trichotomy last steps.length with early | same | late
          · exact absurd ends' (before last early)
          · exact same
          · exact absurd here (first' steps.length late)
        have taken : cycles.take (steps.length + 1) = steps ++ [cycle] := by
          simp only [cycles, ← whole]
          exact List.take_left' (by simp)
        have found : cycles[steps.length] = cycle := by
          simp only [cycles, ← whole]
          simp
        rw [taken, found]
        exact ⟨rfl, stepped, writes⟩
      · intro never
        exact absurd here (never steps.length present)
  | limited never =>
      constructor
      · intro last inside ends' _
        exact absurd ends' (never last inside)
      · intro _
        exact ⟨rfl, stepped, writes⟩

/-- A core that issues two instructions in its first four cycles: the first one calls
for an interrupt one step later, the second one for the end. -/
def halting : Forecast where
  config :=
    { arch := { generalCount := 1, specialCount := 0 }
      wiring :=
        { pc := "pc", general := "r\x7bindex\x7d", strobe := some "issue", reversed := false } }
  bench := { commands := [⟨.interrupt ⟨1, 1⟩, 0, 1, "1->1", 2⟩, ⟨.finish, 1, 0, "", 4⟩] }
  stimulus := Stimulus.schedule (Stimulus.schedule (Stimulus.schedule
    { signals := [("pc", Bus.ofNat 0 8), ("r0", Bus.ofNat 7 32), ("irq", Bus.ofNat 0 4),
        ("issue", Bus.ofNat 0 1)] }
    ⟨11, "issue", Bus.ofNat 1 1⟩) ⟨21, "issue", Bus.ofNat 0 1⟩) ⟨31, "issue", Bus.ofNat 1 1⟩
      |>.schedule ⟨31, "pc", Bus.ofNat 4 8⟩

theorem halting_admits : halting.Admits 3 where
  usable := by constructor <;> decide
  sampled := by decide
  strobe := by
    rintro path ⟨⟩
    decide
  irq := by decide
  sampled_apart := by decide
  strobe_apart := by
    rintro path ⟨⟩
    decide
  fits := by decide

/-- The interrupt of the first step and the end fire together in the last cycle that
the limit allows. -/
theorem halting_runs_as_foreseen :
    let session : Session Stimulus :=
      ⟨halting.bench, { probe := halting.stimulus, config := halting.config }, {}, []⟩
    halting.Admits 3 ∧ halting.Ends (halting.validCycles 3) 1 ∧
      (∀ step < 1, ¬ halting.Ends (halting.validCycles 3) step) ∧
      (session.run (some 3)).1 = .ok 3 ∧
      (session.steps (some 3)).map Session.now = [11, 31] ∧
      (session.run (some 3)).2.processor.probe.writes = [⟨31, "irq", Bus.ofNat 1 4⟩] := by
  dsimp only
  have ends : halting.Ends (halting.validCycles 3) 1 := by decide
  have first : ∀ step < 1, ¬ halting.Ends (halting.validCycles 3) step := by decide
  have inside : 1 < (halting.validCycles 3).length := by decide
  have last : (halting.validCycles 3)[1] = 3 := by rfl
  have times : ((halting.validCycles 3).take 2).map halting.time = [11, 31] := by decide
  have writes : halting.stimulus.writes ++ halting.writes ((halting.validCycles 3).take 2) =
      [⟨31, "irq", Bus.ofNat 1 4⟩] := by decide
  have foreseen := (run_as_foreseen halting 3 {} [] halting_admits).1 1 inside ends first
  rw [last, times, writes] at foreseen
  exact ⟨halting_admits, ends, first, foreseen⟩

end Forecast

end CoreBench
