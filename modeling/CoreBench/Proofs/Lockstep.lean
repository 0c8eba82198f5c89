import CoreBench.Proofs.Firing

/-!
Two runs side by side. Two cores are alike when every request of a run comes to the same on
both and leaves them alike. A run depends on its core through these requests only, so two
sessions with the same commands on cores that are alike have the same results and the same
tally. One of the two may also stop with an error that is excused on its side.
-/

namespace CoreBench

/-- How two requests can come out: both succeed, both fail in the same way, or one of them
fails with an error that is excused on its side. -/
inductive Meets {E α β A B : Type} (excused excused' : E → Prop) (same : α → β → Prop)
    (alike : A → B → Prop) : Except E α × A → Except E β × B → Prop where
  | ok {value : α} {value' : β} {one : A} {other : B} (values : same value value')
      (states : alike one other) :
      Meets excused excused' same alike (.ok value, one) (.ok value', other)
  | error (error : E) {one : A} {other : B} (states : alike one other) :
      Meets excused excused' same alike (.error error, one) (.error error, other)
  | left {error : E} {one : A} {other : Except E β × B} (excuse : excused error) :
      Meets excused excused' same alike (.error error, one) other
  | right {error : E} {one : Except E α × A} {other : B} (excuse : excused' error) :
      Meets excused excused' same alike one (.error error, other)

theorem Meets.same {E α A B : Type} {excused excused' : E → Prop} {alike : A → B → Prop}
    {one : A} {other : B} (result : Except E α) (states : alike one other) :
    Meets excused excused' Eq alike (result, one) (result, other) := by
  cases result with
  | error error => exact .error error states
  | ok value => exact .ok rfl states

/-- The commands cannot tell two snapshots apart. -/
structure Snapshot.Agree (commands : List Command) (one other : Snapshot) : Prop where
  pc : one.pc = other.pc
  compared : ∀ command ∈ commands, ∀ comparison, command.action = .compare comparison →
    comparison.evaluate one = comparison.evaluate other

theorem Snapshot.Agree.refl (commands : List Command) (snapshot : Snapshot) :
    snapshot.Agree commands snapshot :=
  ⟨rfl, fun _ _ _ _ => rfl⟩

theorem Snapshot.Agree.execute {commands : List Command} {one other : Snapshot}
    (agree : one.Agree commands other) (arch : Arch) (command : Command)
    (member : command ∈ commands) : command.execute one arch = command.execute other arch := by
  simp only [Command.execute]
  cases action : command.action with
  | finish => rfl
  | interrupt update => rfl
  | compare comparison =>
      simp only [Command.check, agree.compared command member comparison action]

/-- Only an interrupt directive asks for an interrupt. -/
theorem Command.interrupt_of_execute (command : Command) (snapshot : Snapshot) (arch : Arch)
    (update : IrqUpdate) (executed : command.execute snapshot arch = .interrupt update) :
    command.action = .interrupt update := by
  have yields := command.execute_yields snapshot arch
  rw [executed] at yields
  cases yields with
  | changed _ action => exact action

variable {P Q : Type} [Probe P] [Probe Q]

/-- A relation between cores of one configuration that every request of a run with the
given commands keeps. The two runs began in the cycles `start` and `start'`, have used the
same number of cycles and spend their budget at the same time. -/
structure Lockstep (config : Config) (commands : List Command) (limit : Option Nat)
    (start start' : Nat) (excused excused' : ProbeError → Prop)
    (alike : Processor P → Processor Q → Prop) : Prop where
  configured {one other} : alike one other → one.config = config ∧ other.config = config
  used {one other} : alike one other → one.cycles - start = other.cycles - start'
  spent {one other} : alike one other → ∀ bound ∈ limit,
    (min (start + bound) (wordLimit - 1) ≤ one.cycles ↔
      min (start' + bound) (wordLimit - 1) ≤ other.cycles)
  strobe {one other} : alike one other →
    Meets excused excused' Eq alike (one.strobe config.wiring.strobePath?)
      (other.strobe config.wiring.strobePath?)
  state {one other} : alike one other →
    Meets excused excused' (Snapshot.Agree commands) alike one.state other.state
  setIrqs {one other} : alike one other → ∀ command ∈ commands, ∀ update,
    command.action = .interrupt update →
      Meets excused excused' Eq alike (one.setIrqs update) (other.setIrqs update)
  runCycle {one other} : alike one other →
    Meets excused excused' Eq alike one.runCycle other.runCycle

/-- A cycle goes as its time passes, for cores that are still alike when both have counted
it. -/
theorem Processor.cycle_meets {excused excused' : ProbeError → Prop}
    {alike : Processor P → Processor Q → Prop} (one : Processor P) (other : Processor Q)
    (counted : ∀ {core : Processor P} {core' : Processor Q}, alike core core' →
      alike { core with cycles := core.cycles + 1 } { core' with cycles := core'.cycles + 1 })
    (met : Meets excused excused' Eq alike (one.pass one.config.timing.cycle)
      (other.pass other.config.timing.cycle)) :
    Meets excused excused' Eq alike one.runCycle other.runCycle := by
  rw [runCycle, runCycle]
  generalize one.pass one.config.timing.cycle = passed at met ⊢
  generalize other.pass other.config.timing.cycle = passed' at met ⊢
  cases met with
  | ok values later => exact .ok rfl (counted later)
  | error error later => exact .error error later
  | left excuse => exact .left excuse
  | right excuse => exact .right excuse

namespace Session

/-- Two sessions with the same commands that differ in their cores only. -/
structure Alike (commands : List Command) (alike : Processor P → Processor Q → Prop)
    (one : Session P) (other : Session Q) : Prop where
  bench : one.bench.commands = commands
  bench' : other.bench.commands = commands
  tally : one.tally = other.tally
  queue : one.queue = other.queue
  cores : alike one.processor other.processor

/-- How two runs can go on: both move on, both stop in the same way, or one of them stops
with an error that is excused on its side. -/
inductive Progress.Meets (excused excused' : ProbeError → Prop)
    (alike : Session P → Session Q → Prop) : Progress P → Progress Q → Prop where
  | going {one : Session P} {other : Session Q} (states : alike one other) :
      Meets excused excused' alike (.going one) (.going other)
  | stopped (result : Except RunError Nat) {one : Session P} {other : Session Q}
      (states : alike one other) :
      Meets excused excused' alike (.stopped result one) (.stopped result other)
  | left {error : ProbeError} {one : Session P} {other : Progress Q} (excuse : excused error) :
      Meets excused excused' alike (.stopped (.error (.probe error)) one) other
  | right {error : ProbeError} {one : Progress P} {other : Session Q} (excuse : excused' error) :
      Meets excused excused' alike one (.stopped (.error (.probe error)) other)

/-- The errors of a run that stand for some errors of its probe. -/
def Excused (excused : ProbeError → Prop) (error : RunError) : Prop :=
  ∃ cause, error = .probe cause ∧ excused cause

variable {config : Config} {commands : List Command} {limit : Option Nat} {start start' : Nat}
  {excused excused' : ProbeError → Prop} {alike : Processor P → Processor Q → Prop}
  {one : Session P} {other : Session Q}

theorem fire_meets (lockstep : Lockstep config commands limit start start' excused excused' alike)
    (states : Alike commands alike one other) {snapshot snapshot' : Snapshot}
    (agree : snapshot.Agree commands snapshot') (command : Command)
    (member : command ∈ commands) :
    Meets excused excused' Eq (Alike commands alike) (one.fire snapshot command)
      (other.fire snapshot' command) := by
  obtain ⟨first, second⟩ := lockstep.configured states.cores
  have recorded : ∀ outcome, Meets excused excused' Eq (Alike commands alike)
      ((.ok (), { one with tally := one.tally.record outcome }) : Except ProbeError Unit × Session P)
      ((.ok (), { other with tally := other.tally.record outcome })) :=
    fun outcome => .ok rfl { states with tally := by rw [states.tally] }
  rw [fire, fire, first, second, agree.execute config.arch command member]
  -- Only an interrupt reaches the cores. The other outcomes go to the tally.
  cases outcome : command.execute snapshot' config.arch with
  | passed => exact recorded .passed
  | failed message => exact recorded (.failed message)
  | finished => exact recorded .finished
  | interrupt update =>
      have met := lockstep.setIrqs states.cores command member update
        (command.interrupt_of_execute _ _ _ outcome)
      dsimp only
      generalize one.processor.setIrqs update = set at met ⊢
      generalize other.processor.setIrqs update = set' at met ⊢
      cases met with
      | ok values cores => exact .ok rfl { states with cores }
      | error error cores => exact .error error { states with cores }
      | left excuse => exact .left excuse
      | right excuse => exact .right excuse

theorem fire_all_meets
    (lockstep : Lockstep config commands limit start start' excused excused' alike)
    {snapshot snapshot' : Snapshot} (agree : snapshot.Agree commands snapshot')
    (indices : List Nat) (states : Alike commands alike one other) :
    Meets excused excused' Eq (Alike commands alike) (fireAll snapshot one indices)
      (fireAll snapshot' other indices) := by
  induction indices generalizing one other with
  | nil => exact .ok rfl states
  | cons index rest ih =>
      rw [fireAll, fireAll, states.bench, states.bench']
      cases found : commands[index]? with
      | none => exact ih states
      | some command =>
          have met := fire_meets lockstep states agree command (List.mem_of_getElem? found)
          dsimp only
          generalize one.fire snapshot command = fired at met ⊢
          generalize other.fire snapshot' command = fired' at met ⊢
          cases met with
          | ok values later => exact ih later
          | error error later => exact .error error later
          | left excuse => exact .left excuse
          | right excuse => exact .right excuse

theorem step_meets (lockstep : Lockstep config commands limit start start' excused excused' alike)
    (states : Alike commands alike one other) :
    Meets excused excused' Eq (Alike commands alike) one.step other.step := by
  obtain ⟨first, second⟩ := lockstep.configured states.cores
  have met := lockstep.state states.cores
  rw [step, step]
  generalize one.processor.state = sampled at met ⊢
  generalize other.processor.state = sampled' at met ⊢
  cases met with
  | @ok snapshot snapshot' processor processor' agree cores =>
      have queue : one.enroll snapshot = other.enroll snapshot' := by
        rw [enroll, enroll, first, second, Snapshot.address?, Snapshot.address?, agree.pc,
          states.queue, states.bench, states.bench']
      dsimp only
      rw [queue]
      exact fire_all_meets lockstep agree _ { states with queue := rfl, cores }
  | error error cores => exact .error error { states with cores }
  | left excuse => exact .left excuse
  | right excuse => exact .right excuse

theorem move_on_meets
    (lockstep : Lockstep config commands limit start start' excused excused' alike)
    (states : Alike commands alike one other) :
    Progress.Meets excused excused' (Alike commands alike) one.moveOn other.moveOn := by
  have met := lockstep.runCycle states.cores
  rw [moveOn, moveOn]
  generalize one.processor.runCycle = ran at met ⊢
  generalize other.processor.runCycle = ran' at met ⊢
  cases met with
  | ok values cores => exact .going { states with cores }
  | error error cores => exact .stopped _ { states with cores }
  | left excuse => exact .left excuse
  | right excuse => exact .right excuse

/-- Both sessions stop at the limit, or both move on, when their limits are spent alike. -/
theorem limit_meets
    (lockstep : Lockstep config commands limit start start' excused excused' alike)
    (states : Alike commands alike one other) (spent spent' : Nat → Bool)
    (same : ∀ bound ∈ limit, spent bound = spent' bound) :
    Progress.Meets excused excused' (Alike commands alike)
      (match limit.filter spent with
        | some limit => .stopped (.error (.cycleLimit limit)) one
        | none => one.moveOn)
      (match limit.filter spent' with
        | some limit => .stopped (.error (.cycleLimit limit)) other
        | none => other.moveOn) := by
  cases limit with
  | none => exact move_on_meets lockstep states
  | some bound =>
      rw [Option.filter_some, Option.filter_some, same bound rfl]
      cases spent' bound with
      | true => exact .stopped _ states
      | false => exact move_on_meets lockstep states

theorem tick_meets (lockstep : Lockstep config commands limit start start' excused excused' alike)
    (states : Alike commands alike one other) :
    Progress.Meets excused excused' (Alike commands alike)
      (tick config.wiring.strobePath? limit start one)
      (tick config.wiring.strobePath? limit start' other) := by
  have met := lockstep.strobe states.cores
  rw [tick, tick]
  generalize one.processor.strobe config.wiring.strobePath? = strobed at met ⊢
  generalize other.processor.strobe config.wiring.strobePath? = strobed' at met ⊢
  cases met with
  | error error cores => exact .stopped _ { states with cores }
  | left excuse => exact .left excuse
  | right excuse => exact .right excuse
  | @ok valid valid' processor processor' values cores =>
      obtain rfl := values
      have settled : Alike commands alike { one with processor }
          { other with processor := processor' } := { states with cores }
      cases valid with
      | false =>
          -- The budget is counted from the start of each run here, not by what it has used.
          exact limit_meets lockstep settled _ _
            fun bound member => decide_eq_decide.mpr (lockstep.spent cores bound member)
      | true =>
          have stepped := step_meets lockstep settled
          dsimp only
          generalize step { one with processor } = after at stepped ⊢
          generalize step { other with processor := processor' } = after' at stepped ⊢
          cases stepped with
          | error error later => exact .stopped _ later
          | left excuse => exact .left excuse
          | right excuse => exact .right excuse
          | ok values later =>
              have used := lockstep.used later.cores
              dsimp only
              rw [later.tally, used]
              split
              · exact .stopped _ later
              · exact limit_meets lockstep later _ _ fun _ _ => rfl

/-- Two runs that go side by side end side by side. The induction is on the fuel, which
they share. -/
theorem loop_meets (lockstep : Lockstep config commands limit start start' excused excused' alike)
    (fuel : Nat) (states : Alike commands alike one other) :
    Meets (Excused excused) (Excused excused') Eq (Alike commands alike)
      (loop config.wiring.strobePath? limit start fuel one)
      (loop config.wiring.strobePath? limit start' fuel other) := by
  induction fuel generalizing one other with
  | zero => exact .error RunError.counterFull states
  | succ fuel ih =>
      have met := tick_meets lockstep states
      rw [loop, loop]
      generalize tick config.wiring.strobePath? limit start one = progress at met ⊢
      generalize tick config.wiring.strobePath? limit start' other = progress' at met ⊢
      cases met with
      | going later => exact ih later
      | stopped result later =>
          cases result with
          | ok used => exact .ok rfl later
          | error error => exact .error error later
      | left excuse => exact .left ⟨_, rfl, excuse⟩
      | right excuse => exact .right ⟨_, rfl, excuse⟩

/-- Two sessions that are alike once they have settled, in the same cycle, run alike. -/
theorem run_meets (one : Session P) (other : Session Q)
    (lockstep : Lockstep config commands limit one.processor.cycles other.processor.cycles excused
      excused' alike)
    (same : ∀ {core core'}, alike core core' → core.cycles = core'.cycles)
    (bench : one.bench.commands = commands) (bench' : other.bench.commands = commands)
    (settled : Meets excused excused' Eq alike one.processor.settle other.processor.settle) :
    Meets (Excused excused) (Excused excused') Eq (Alike commands alike) (one.run limit)
      (other.run limit) := by
  simp only [run, reset, clear]
  generalize one.processor.settle = calm at settled ⊢
  generalize other.processor.settle = calm' at settled ⊢
  cases settled with
  | ok values cores =>
      obtain ⟨first, second⟩ := lockstep.configured cores
      dsimp only
      rw [first, second, same cores]
      exact loop_meets lockstep _ ⟨bench, bench', rfl, rfl, cores⟩
  | error error cores => exact .error (RunError.probe error) ⟨bench, bench', rfl, rfl, cores⟩
  | left excuse => exact .left ⟨_, rfl, excuse⟩
  | right excuse => exact .right ⟨_, rfl, excuse⟩

end Session

end CoreBench
