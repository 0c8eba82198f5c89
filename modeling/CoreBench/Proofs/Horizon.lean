import CoreBench.Proofs.Budget
import CoreBench.Proofs.Recall
import CoreBench.Proofs.Schedule

/-!
Runs without a budget. Then nothing counts the cycles, but each of them moves the time of
the probe on, and neither of the two probes lets time pass for ever: a stimulus has 64 bits
for it, and a replay only what was recorded. So a run ends after the cycles for which there
is time, by its end directive or by an error of the probe.
-/

namespace CoreBench

/-- Probes that show their time by `stands` and move it on no further than `last`. -/
structure Probe.Horizon {P : Type} [Probe P] (last : Nat) (stands : Nat → P → Prop) : Prop where
  lasting : ∀ time, Probe.Lasting (stands time)
  advance : ∀ time probe units next, stands time probe →
    Probe.advance probe units = (.ok (), next) → time + units ≤ last ∧ stands (time + units) next

theorem Stimulus.horizon :
    Probe.Horizon (wordLimit - 1) fun time (stimulus : Stimulus) => stimulus.now = time where
  lasting time := by
    constructor
    · intro stimulus path now
      show (Stimulus.read stimulus path).2.now = time
      unfold Stimulus.read
      split <;> exact now
    · intro stimulus path value now
      show (Stimulus.write stimulus path value).2.now = time
      unfold Stimulus.write
      split <;> exact now
  advance := by
    rintro time stimulus units next rfl moved
    by_cases full : wordLimit ≤ stimulus.now + units
    · rw [Stimulus.advance_full _ _ full] at moved
      cases moved
    · rw [Stimulus.advance_ok _ _ (Nat.lt_of_not_le full)] at moved
      cases moved
      exact ⟨by omega, rfl⟩

/-- A replay asks for a time of at most 64 bits. Such a time is beyond the recording if the
recording ends before the last of them. -/
theorem Replay.horizon (finish : Nat) (short : finish < wordLimit - 1) :
    Probe.Horizon finish fun time (replay : Replay) =>
      replay.now = time ∧ replay.endTime = finish where
  lasting time := by
    constructor
    · rintro replay path ⟨now, finish⟩
      obtain ⟨_, twin⟩ := replay.read_twin path
      exact ⟨twin.now.trans now, twin.end_time.trans finish⟩
    · exact fun replay path value shown => shown
  advance := by
    rintro time replay units next ⟨rfl, rfl⟩ moved
    change Replay.advance replay units = _ at moved
    rw [Replay.advance] at moved
    split at moved
    next => cases moved
    next covered =>
        cases moved
        have whole : min (replay.now + units) (wordLimit - 1) = replay.now + units := by omega
        exact ⟨by omega, whole, rfl⟩

variable {P : Type} {last base : Nat} {stands : Nat → P → Prop} {config : Config}

/-- A core whose probe shows the time of all its cycles, since the time `base`. -/
structure Processor.Clocked (last base : Nat) (stands : Nat → P → Prop) (config : Config)
    (processor : Processor P) : Prop where
  configured : processor.config = config
  shown : stands (base + processor.cycles * config.timing.cycle) processor.probe
  inside : base + processor.cycles * config.timing.cycle ≤ last

namespace Processor

/-- There was time for every cycle that a core has seen. -/
theorem Clocked.cycles_le {processor : Processor P}
    (clocked : Clocked last base stands config processor) (positive : 1 ≤ config.timing.cycle) :
    processor.cycles ≤ (last - base) / config.timing.cycle := by
  have inside := clocked.inside
  exact (Nat.le_div_iff_mul_le positive).mpr (by omega)

theorem Clocked.still {before after : Processor P}
    (clocked : Clocked last base stands config before)
    (still : Still (stands (base + before.cycles * config.timing.cycle)) before after) :
    Clocked last base stands config after where
  configured := still.config.trans clocked.configured
  shown := still.cycles ▸ still.probe clocked.shown
  inside := still.cycles ▸ clocked.inside

variable [Probe P]

/-- A cycle begins only if there is time for all of it. -/
theorem Clocked.run_cycle {processor next : Processor P} (horizon : Probe.Horizon last stands)
    (clocked : Clocked last base stands config processor)
    (ran : processor.runCycle = (.ok (), next)) :
    Clocked last base stands config next ∧ next.cycles = processor.cycles + 1 := by
  rw [runCycle, pass, clocked.configured] at ran
  generalize advanced : Probe.advance processor.probe config.timing.cycle = outcome at ran
  obtain ⟨result, probe⟩ := outcome
  cases result with
  | error error => cases ran
  | ok =>
      cases ran
      obtain ⟨inside, shown⟩ := horizon.advance _ _ _ _ clocked.shown advanced
      have later : base + (processor.cycles + 1) * config.timing.cycle =
          base + processor.cycles * config.timing.cycle + config.timing.cycle := by
        rw [Nat.succ_mul, Nat.add_assoc]
      exact ⟨⟨rfl, later ▸ shown, later ▸ inside⟩, rfl⟩

end Processor

namespace Session

variable [Probe P] {strobePath? : Option String}

/-- How a first run on a core ends that has time for `most` cycles: with the end reached, and
then it tells its cycles, or by an error of the probe. -/
inductive Expires (most : Nat) : Except RunError Nat × Session P → Prop where
  | complete (session : Session P) (inside : session.processor.cycles ≤ most)
      (complete : session.tally.complete = true) :
      Expires most (.ok session.processor.cycles, session)
  | failed (session : Session P) (inside : session.processor.cycles ≤ most) (error : ProbeError) :
      Expires most (.error (.probe error), session)

/-- Where a session on a core in time comes to in one cycle. -/
inductive Elapses (last base : Nat) (stands : Nat → P → Prop) (config : Config) (cycles : Nat) :
    Progress P → Prop where
  | going (after : Session P) (clocked : after.processor.Clocked last base stands config)
      (later : after.processor.cycles = cycles + 1) :
      Elapses last base stands config cycles (.going after)
  | stopped (result : Except RunError Nat) (after : Session P)
      (expires : Expires cycles (result, after)) :
      Elapses last base stands config cycles (.stopped result after)

theorem move_on_elapses (horizon : Probe.Horizon last stands) (session : Session P)
    (clocked : session.processor.Clocked last base stands config) :
    Elapses last base stands config session.processor.cycles session.moveOn := by
  rw [moveOn]
  cases ran : session.processor.runCycle with
  | mk result processor =>
      cases result with
      | error error =>
          have same := Processor.run_cycle_cycles session.processor processor _ ran
          exact .stopped _ _ (.failed _ (Nat.le_of_eq same) error)
      | ok =>
          obtain ⟨clocked, later⟩ := clocked.run_cycle horizon ran
          exact .going _ clocked later

/-- Without a budget nothing but a step and the probe can stop a session. -/
theorem tick_elapses (horizon : Probe.Horizon last stands) (session : Session P)
    (clocked : session.processor.Clocked last base stands config) :
    Elapses last base stands config session.processor.cycles
      (tick strobePath? none 0 session) := by
  have lasting := horizon.lasting (base + session.processor.cycles * config.timing.cycle)
  have strobed := Processor.strobe_still lasting strobePath? session.processor
  rw [tick]
  split
  next error processor failed =>
      rw [failed] at strobed
      exact .stopped _ _ (.failed _ (Nat.le_of_eq strobed.cycles) error)
  next processor low =>
      rw [low] at strobed
      have moved := move_on_elapses horizon { session with processor } (clocked.still strobed)
      exact strobed.cycles ▸ moved
  next processor high =>
      rw [high] at strobed
      have stepped := strobed.trans (step_still lasting { session with processor })
      split
      next error after failed =>
          rw [failed] at stepped
          exact .stopped _ _ (.failed _ (Nat.le_of_eq stepped.cycles) error)
      next after ran =>
          rw [ran] at stepped
          dsimp only
          split
          next complete =>
              exact .stopped _ _ (.complete after (Nat.le_of_eq stepped.cycles) complete)
          next =>
              have moved := move_on_elapses horizon after (clocked.still stepped)
              exact stepped.cycles ▸ moved

/-- The induction is on the fuel, which is all that the counter of the core can still count.
There is no time for so many cycles. -/
theorem loop_expires (horizon : Probe.Horizon last stands) (fits : last < wordLimit)
    (positive : 1 ≤ config.timing.cycle) (fuel : Nat) (session : Session P)
    (clocked : session.processor.Clocked last base stands config)
    (enough : session.processor.cycles + fuel = wordLimit) :
    Expires ((last - base) / config.timing.cycle) (loop strobePath? none 0 fuel session) := by
  have most := clocked.cycles_le positive
  induction fuel generalizing session with
  | zero =>
      have all := Nat.div_le_self (last - base) config.timing.cycle
      omega
  | succ fuel ih =>
      have elapsed : Elapses last base stands config session.processor.cycles
          (tick strobePath? none 0 session) := tick_elapses horizon session clocked
      rw [loop]
      generalize tick strobePath? none 0 session = progress at elapsed ⊢
      cases elapsed with
      | going after clocked later =>
          exact ih after clocked (by omega) (clocked.cycles_le positive)
      | stopped result after expires =>
          cases expires with
          | complete _ inside complete => exact .complete after (Nat.le_trans inside most) complete
          | failed _ inside error => exact .failed after (Nat.le_trans inside most) error

theorem run_expires (horizon : Probe.Horizon last stands) (fits : last < wordLimit)
    (positive : 1 ≤ config.timing.cycle) (bench : Bench) (probe : P) (tally : Tally)
    (queue : List Pending) (shown : stands base probe) :
    Expires ((last - base - config.timing.settle) / config.timing.cycle)
      (run none ⟨bench, { probe, config }, tally, queue⟩) := by
  rw [run, Processor.settle, Processor.pass]
  dsimp only [reset, clear]
  cases settled : Probe.advance probe config.timing.settle with
  | mk result calm =>
      cases result with
      | error error => exact .failed _ (Nat.zero_le _) error
      | ok =>
          obtain ⟨inside, shown⟩ := horizon.advance _ _ _ _ shown settled
          rw [Nat.sub_sub]
          apply loop_expires horizon fits positive
          · exact ⟨rfl, by rwa [Nat.zero_mul], by rwa [Nat.zero_mul]⟩
          · exact Nat.zero_add wordLimit

/-- Without a budget a first run on a core still ends, whatever the strobe does. On a stimulus
it takes the cycles that fit into the time that is left of 64 bits, at most, and on a replay
those that were recorded, if the recording ends before the last time of 64 bits. It succeeds
with the number of its cycles or ends by an error of the probe. -/
theorem run_ends_in_time (bench : Bench) (config : Config) (tally : Tally) (queue : List Pending)
    (positive : 1 ≤ config.timing.cycle) :
    (∀ stimulus : Stimulus,
      Expires ((wordLimit - 1 - stimulus.now - config.timing.settle) / config.timing.cycle)
        (run none ⟨bench, { probe := stimulus, config }, tally, queue⟩)) ∧
      ∀ replay : Replay, replay.endTime < wordLimit - 1 →
        Expires ((replay.endTime - replay.now - config.timing.settle) / config.timing.cycle)
          (run none ⟨bench, { probe := replay, config }, tally, queue⟩) := by
  constructor
  · intro stimulus
    exact run_expires Stimulus.horizon (by decide) positive bench stimulus tally queue rfl
  · intro replay short
    exact run_expires (Replay.horizon replay.endTime short) (by omega) positive bench replay tally
      queue ⟨rfl, rfl⟩

/-- Cycles of which no more than three fit into 64 bits of time, behind the settling. -/
def waitingConfig : Config where
  arch := { generalCount := 0, specialCount := 0 }
  wiring := { pc := "pc", strobe := some "issue", reversed := false }
  timing := { cycle := 2 ^ 62 }

def waitingTrace : Waveform where
  fsPerUnit := 1
  signals := [⟨"issue", 1, [⟨0, Bus.ofNat 0 1⟩]⟩]
  endTime := 3 * 2 ^ 62

/-- A core that never issues an instruction waits until the end of time, and until the end of
a recording that is shorter. -/
theorem waiting_ends_in_time :
    let stimulus : Stimulus := { signals := [("issue", Bus.ofNat 0 1)] }
    let replay := Replay.start waitingTrace 1
    let ran := run none ⟨{}, { probe := stimulus, config := waitingConfig }, {}, []⟩
    let ran' := run none ⟨{}, { probe := replay, config := waitingConfig }, {}, []⟩
    1 ≤ waitingConfig.timing.cycle ∧ Expires 3 ran ∧ ran.2.processor.cycles = 3 ∧
      ran.1 = .error (.probe (.backend "simulated time overflow")) ∧
      replay.endTime < wordLimit - 1 ∧ Expires 2 ran' ∧ ran'.2.processor.cycles = 2 ∧
      ran'.1 = .error (.probe (.endOfTrace (3 * 2 ^ 62) (3 * 2 ^ 62 + 1))) := by
  intro stimulus replay ran ran'
  have positive : 1 ≤ waitingConfig.timing.cycle := by decide
  have short : replay.endTime < wordLimit - 1 := by decide
  obtain ⟨simulated, replayed⟩ := run_ends_in_time {} waitingConfig {} [] positive
  have room : (wordLimit - 1 - stimulus.now - waitingConfig.timing.settle) /
      waitingConfig.timing.cycle = 3 := by decide
  have room' : (replay.endTime - replay.now - waitingConfig.timing.settle) /
      waitingConfig.timing.cycle = 2 := by decide
  exact ⟨positive, room ▸ simulated stimulus, by decide +kernel, by decide +kernel, short,
    room' ▸ replayed replay short, by decide +kernel, by decide +kernel⟩

end Session

end CoreBench
