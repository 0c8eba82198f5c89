import CoreBench.Proofs.Firing
import CoreBench.Proofs.Interrupts
import CoreBench.Proofs.Standstill
import CoreBench.Proofs.Timetable
import CoreBench.Probe.Replay

/-!
All commands that are due in a step act on one state of the core. The comparisons among them
see the snapshot that the step has begun with, whatever the interrupts among them drive and
wherever the end stands. The interrupts come one after another: each reads the lines that the
one before has left, and drives them once.
-/

namespace CoreBench

namespace Probe

/-- A record of what is driven. Reads leave it as it is, and a drive is added at its end. -/
structure Logs {P : Type} [Probe P] (log : P → List (String × Bus)) : Prop where
  read : ∀ probe path, log (Probe.read probe path).2 = log probe
  write : ∀ probe path value after, Probe.write probe path value = (.ok (), after) →
    log after = log probe ++ [(path, value)]

/-- A signal that was driven has the value that it was driven to. -/
def Retains (P : Type) [Probe P] : Prop :=
  ∀ (probe after : P) (path : String) (value : Bus),
    Probe.write probe path value = (.ok (), after) → (Probe.read after path).1 = .ok value

end Probe

namespace Stimulus

theorem write_ok {stimulus after : Stimulus} {path : String} {value : Bus}
    (written : Probe.write stimulus path value = (.ok (), after)) :
    after = stimulus.wrote path value := by
  cases declared : stimulus.value? path with
  | none =>
      change write stimulus path value = _ at written
      rw [write, declared] at written
      cases written
  | some old =>
      rw [stimulus.write_declared path value (by rw [declared]; rfl)] at written
      cases written
      rfl

theorem logs : Probe.Logs fun stimulus : Stimulus =>
    stimulus.writes.map fun change => (change.path, change.value) where
  read stimulus path := by rw [read_eq]
  write stimulus path value after written := by
    rw [write_ok written, wrote, List.map_append]
    rfl

theorem retains : Probe.Retains Stimulus := by
  intro stimulus after path value written
  have driven : after.value? path = some value := by
    rw [write_ok written, wrote_value, if_pos rfl]
  rw [read_declared after path value driven]

end Stimulus

theorem Replay.retains : Probe.Retains Replay := by
  intro replay after path value written
  cases written
  change (Replay.read _ path).1 = _
  rw [Replay.read, Table.get?_put, if_pos rfl]

namespace Processor

variable {P : Type} [Probe P]

/-- Changes of the interrupt lines, one after another. Each reads the lines once and drives
once what it makes of them, and the values are those that were driven. -/
inductive Drives : Processor P → List IrqUpdate → List Bus → Processor P → Prop where
  | done (processor : Processor P) : Drives processor [] [] processor
  | next {before after : Processor P} {update : IrqUpdate} {rest : List IrqUpdate} {lines : Bus}
      {values : List Bus} {asked told : P}
      (read : Probe.read before.probe before.config.wiring.irq = (.ok lines, asked))
      (write : Probe.write asked before.config.wiring.irq (before.redriven update lines) =
        (.ok (), told))
      (others : Drives { before with probe := told } rest values after) :
      Drives before (update :: rest) (before.redriven update lines :: values) after

theorem set_irqs_ok {before after : Processor P} {update : IrqUpdate}
    (set : before.setIrqs update = (.ok (), after)) :
    ∃ lines asked told,
      Probe.read before.probe before.config.wiring.irq = (.ok lines, asked) ∧
      Probe.write asked before.config.wiring.irq (before.redriven update lines) =
        (.ok (), told) ∧
      after = { before with probe := told } := by
  unfold setIrqs at set
  cases read : Probe.read before.probe before.config.wiring.irq with
  | mk result asked =>
      cases result with
      | error error =>
          simp only [read] at set
          cases set
      | ok lines =>
          simp only [read] at set
          cases write : Probe.write asked before.config.wiring.irq
              (before.redriven update lines) with
          | mk result told =>
              unfold redriven at write
              simp only [write] at set
              cases set
              exact ⟨lines, asked, told, rfl, write, rfl⟩

variable {before after : Processor P} {updates : List IrqUpdate} {values : List Bus}

theorem Drives.logged (drives : Drives before updates values after)
    {log : P → List (String × Bus)} (logs : Probe.Logs log) :
    log after.probe = log before.probe ++ values.map (Prod.mk before.config.wiring.irq) := by
  induction drives with
  | done => exact (List.append_nil _).symm
  | @next before after update rest lines values asked told read write others ih =>
      have kept := logs.read before.probe before.config.wiring.irq
      rw [read] at kept
      rw [ih, logs.write _ _ _ _ write, kept, List.append_assoc]
      rfl

/-- Where a drive lasts until the next read, each change starts from what the one before has
left. -/
theorem Drives.chained (drives : Drives before updates values after)
    (retains : Probe.Retains P) (lines : Bus)
    (start : (Probe.read before.probe before.config.wiring.irq).1 = .ok lines) :
    lines :: values = updates.scanl (fun lines update => before.redriven update lines) lines := by
  -- On the changes; what one of them drives is what the next one reads.
  induction drives generalizing lines with
  | done => rfl
  | @next before after update rest current values asked told read write others ih =>
      rw [read] at start
      cases start
      have left := ih (before.redriven update current) (retains asked told _ _ write)
      rw [List.scanl_cons]
      exact congrArg (List.cons current) left

end Processor

namespace Outcome

def message? : Outcome → Option String
  | failed message => some message
  | _ => none

end Outcome

namespace Tally

theorem record_all_passed (outcomes : List Outcome) (tally : Tally) :
    (outcomes.foldl record tally).passed = tally.passed + outcomes.count .passed := by
  induction outcomes generalizing tally with
  | nil => rfl
  | cons outcome rest ih =>
      rw [List.foldl_cons, ih]
      cases outcome <;> simp [record]
      omega

theorem record_all_failures (outcomes : List Outcome) (tally : Tally) :
    (outcomes.foldl record tally).failures =
      tally.failures ++ outcomes.filterMap Outcome.message? := by
  induction outcomes generalizing tally with
  | nil => exact (List.append_nil _).symm
  | cons outcome rest ih =>
      rw [List.foldl_cons, ih]
      cases outcome <;> simp [record, List.filterMap_cons, Outcome.message?]

theorem record_all_complete (outcomes : List Outcome) (tally : Tally) :
    (outcomes.foldl record tally).complete = true ↔
      tally.complete = true ∨ .finished ∈ outcomes := by
  induction outcomes generalizing tally with
  | nil => simp
  | cons outcome rest ih =>
      rw [List.foldl_cons, ih]
      cases outcome <;> simp [record]

end Tally

namespace Command

/-- The change of interrupt lines that a command is. -/
def update? (command : Command) : Option IrqUpdate :=
  match command.action with
  | .interrupt update => some update
  | _ => none

variable {command : Command} {snapshot : Snapshot} {outcome : Outcome}

theorem Yields.passed_iff (yields : command.Yields snapshot outcome) :
    outcome = .passed ↔ Firing.passes ⟨command, snapshot⟩ = true := by
  rw [Firing.passes_iff]
  cases yields <;> simp [*]

theorem Yields.message (yields : command.Yields snapshot outcome) :
    outcome.message?.isSome = Firing.fails ⟨command, snapshot⟩ := by
  rw [Bool.eq_iff_iff, Firing.fails_iff]
  cases yields <;> simp [*, Outcome.message?]

theorem Yields.finished_iff (yields : command.Yields snapshot outcome) :
    outcome = .finished ↔ command.action = .finish := by
  cases yields <;> simp [*]

end Command

namespace Session

variable {P : Type} [Probe P] {snapshot : Snapshot} {before after : Session P}

/-- A command that has fired has recorded its outcome, and has changed the interrupt lines if
that is what it is for. -/
theorem fire_ok {command : Command} (fired : before.fire snapshot command = (.ok (), after)) :
    after.tally =
        before.tally.record (command.execute snapshot before.processor.config.arch) ∧
      (command.update? = none → after.processor = before.processor) ∧
      ∀ update, command.update? = some update →
        before.processor.setIrqs update = (.ok (), after.processor) := by
  unfold fire at fired
  -- A comparison that fails leaves a message that depends on the values, so the outcome is named.
  have yields := command.execute_yields snapshot before.processor.config.arch
  unfold Command.update?
  generalize command.execute snapshot before.processor.config.arch = outcome at fired yields ⊢
  cases yields with
  | held comparison action =>
      cases fired
      simp [action]
  | missed comparison message action =>
      cases fired
      simp [action]
  | changed update action =>
      simp only at fired
      cases set : before.processor.setIrqs update with
      | mk result processor =>
          rw [set] at fired
          cases fired
          simp [action, set, Tally.record]
  | ended action =>
      cases fired
      simp [action]

theorem fire_config {command : Command}
    (fired : before.fire snapshot command = (.ok (), after)) :
    after.processor.config = before.processor.config := by
  have kept := (fire_still .trivial before snapshot command).config
  rwa [fired] at kept

variable {commands : List Command}

theorem Fires.config (fires : Fires snapshot before commands after) :
    after.processor.config = before.processor.config := by
  induction fires with
  | done => rfl
  | next first others ih => exact ih.trans (fire_config first)

/-- The tally records one outcome for each command, all of them for one snapshot. -/
theorem Fires.tally (fires : Fires snapshot before commands after) :
    after.tally = (commands.map fun command =>
      command.execute snapshot before.processor.config.arch).foldl Tally.record before.tally := by
  induction fires with
  | done => rfl
  | next first others ih =>
      rw [ih, (fire_ok first).1, fire_config first]
      rfl

theorem Fires.drives (fires : Fires snapshot before commands after) :
    ∃ values, before.processor.Drives (commands.filterMap Command.update?) values
      after.processor := by
  -- On the commands; of these only interrupts touch the core.
  induction fires with
  | done session => exact ⟨[], .done session.processor⟩
  | @next before between after command rest first others ih =>
      obtain ⟨values, drives⟩ := ih
      obtain ⟨_, untouched, changed⟩ := fire_ok first
      cases kind : command.update? with
      | none =>
          rw [untouched kind] at drives
          rw [List.filterMap_cons_none kind]
          exact ⟨values, drives⟩
      | some update =>
          obtain ⟨lines, asked, told, read, write, moved⟩ :=
            Processor.set_irqs_ok (changed update kind)
          rw [moved] at drives
          rw [List.filterMap_cons_some kind]
          exact ⟨_, .next read write drives⟩

/-- The commands that are due in a step with this snapshot, in the order of the queue. -/
def dueOn (session : Session P) (snapshot : Snapshot) : List Command :=
  (Pending.due (session.enroll snapshot)).filterMap fun index => session.bench.commands[index]?

/-- All commands have fired on one snapshot, and the tally has counted each of them. -/
structure FiresAtOnce (snapshot : Snapshot) (due : List Command) (before after : Session P) :
    Prop where
  fires : Fires snapshot before due after
  passed : after.tally.passed =
    before.tally.passed + due.countP fun command => Firing.passes ⟨command, snapshot⟩
  failures : ∃ messages, after.tally.failures = before.tally.failures ++ messages ∧
    (due.filter fun command => Firing.fails ⟨command, snapshot⟩).map
        (fun command => command.execute snapshot before.processor.config.arch) =
      messages.map Outcome.failed
  complete : after.tally.complete = true ↔
    before.tally.complete = true ∨ ∃ command ∈ due, command.action = .finish

/-- The messages are those of the comparisons that fail, in the same order. -/
theorem messages_of_fails (snapshot : Snapshot) (arch : Arch) (commands : List Command) :
    (commands.filter fun command => Firing.fails ⟨command, snapshot⟩).map
        (fun command => command.execute snapshot arch) =
      ((commands.map fun command => command.execute snapshot arch).filterMap
        Outcome.message?).map Outcome.failed := by
  induction commands with
  | nil => rfl
  | cons command rest ih =>
      have failed := (command.execute_yields snapshot arch).message
      rw [List.map_cons, List.filterMap_cons, List.filter_cons, ← failed]
      cases outcome : command.execute snapshot arch with
      | failed message => simp [Outcome.message?, outcome, ih]
      | passed => exact ih
      | interrupt update => exact ih
      | finished => exact ih

theorem Fires.at_once (fires : Fires snapshot before commands after) :
    FiresAtOnce snapshot commands before after where
  fires
  passed := by
    rw [fires.tally, Tally.record_all_passed, List.count_eq_countP, List.countP_map]
    congr 1
    apply List.countP_congr
    intro command _
    have yields := command.execute_yields snapshot before.processor.config.arch
    rw [← yields.passed_iff, Function.comp_apply, beq_iff_eq]
  failures := by
    rw [fires.tally, Tally.record_all_failures]
    exact ⟨_, rfl, messages_of_fails snapshot _ commands⟩
  complete := by
    rw [fires.tally, Tally.record_all_complete, List.mem_map]
    simp only [(Command.execute_yields _ _ _).finished_iff]

/-- A step that succeeds has fired the commands that are due, all of them in the order of the
queue and on the snapshot that it took first. The comparisons that hold on it are counted, those
that do not have left their messages, and the bench is complete if it was or if an end was due.
The probe was driven once for each interrupt and otherwise not at all, in the same order; where
a signal keeps what it was driven to, each interrupt starts from what the one before has left. -/
theorem step_fires_at_once (session after : Session P)
    (succeeded : session.step = (.ok (), after)) :
    ∃ (snapshot : Snapshot) (sampled : Processor P) (values : List Bus),
      session.processor.state = (.ok snapshot, sampled) ∧
      sampled.config = session.processor.config ∧
      after.queue = Pending.countDown (session.enroll snapshot) ∧
      FiresAtOnce snapshot (session.dueOn snapshot)
        { session with processor := sampled, queue := after.queue } after ∧
      let irq := session.processor.config.wiring.irq
      let updates := (session.dueOn snapshot).filterMap Command.update?
      sampled.Drives updates values after.processor ∧
      (∀ log, Probe.Logs log →
        log after.processor.probe = log session.processor.probe ++ values.map (Prod.mk irq)) ∧
      (Probe.Retains P → ∀ lines, (Probe.read sampled.probe irq).1 = .ok lines →
        lines :: values =
          updates.scanl (fun lines update => sampled.redriven update lines) lines) := by
  obtain ⟨snapshot, sampled, state⟩ := state_of_step succeeded
  rw [step_of_state state, fire_all_iff] at succeeded
  have queue : after.queue = Pending.countDown (session.enroll snapshot) := succeeded.queue
  rw [← queue] at succeeded
  have config : sampled.config = session.processor.config := by
    have still := Processor.state_still Probe.Lasting.trivial.read session.processor
    rw [state] at still
    exact still.config
  obtain ⟨values, drives⟩ := succeeded.drives
  refine ⟨snapshot, sampled, values, state, config, queue, succeeded.at_once, drives, ?_, ?_⟩
  · intro log logs
    -- The snapshot is taken by reads, which leave the record as it is.
    have still := Processor.state_still
      (fun probe path (same : log probe = log session.processor.probe) =>
        (logs.read probe path).trans same) session.processor
    rw [state] at still
    rw [drives.logged logs, still.probe rfl, config]
  · intro retains lines start
    rw [← config] at start
    exact drives.chained retains lines start

/-- A core whose only register is its interrupt lines. All commands are due in one step: two
interrupts, each with a comparison behind it, and the end between them. -/
def crowded : Session Stimulus where
  bench :=
    { commands :=
        [⟨.interrupt ⟨1, 1⟩, 0, 0, "1->1", 2⟩,
          ⟨.compare ⟨.register .general ⟨0, 3, 0⟩, .equal, .constant 8⟩, 0, 0, "r0 == 8", 3⟩,
          ⟨.finish, 0, 0, "", 4⟩, ⟨.interrupt ⟨6, 2⟩, 0, 0, "6->2", 5⟩,
          ⟨.compare ⟨.register .general ⟨0, 3, 0⟩, .different, .constant 8⟩, 0, 0, "r0 != 8",
            6⟩] }
  processor :=
    { probe := { signals := [("pc", Bus.ofNat 0 8), ("r0", Bus.ofNat 8 4)] }
      config :=
        { arch := { generalCount := 1, specialCount := 0 }
          wiring :=
            { pc := "pc", general := "r0", irq := "r0", strobe := none, reversed := false } } }

/-- Both comparisons see the register as it was, so the first one holds and the second one fails.
The second interrupt starts from the lines that the first one has left. -/
theorem crowded_fires_at_once :
    let after := crowded.step.2
    crowded.step = (.ok (), after) ∧
      (∃ sampled, FiresAtOnce ⟨some 0, [some 8], []⟩ crowded.bench.commands
        { crowded with processor := sampled, queue := after.queue } after) ∧
      after.tally.passed = 1 ∧ after.tally.failures.length = 1 ∧ after.tally.complete = true ∧
      after.processor.probe.writes = [⟨0, "r0", Bus.ofNat 9 4⟩, ⟨0, "r0", Bus.ofNat 11 4⟩] ∧
      ∃ values, (after.processor.probe.writes.map fun change => (change.path, change.value)) =
          values.map (Prod.mk "r0") ∧
        Bus.ofNat 8 4 :: values = [⟨1, 1⟩, ⟨6, 2⟩].scanl
          (fun lines update => crowded.processor.redriven update lines) (Bus.ofNat 8 4) := by
  intro after
  have succeeded : crowded.step = (.ok (), after) := rfl
  obtain ⟨snapshot, sampled, values, state, _, _, fires, _, logged, chained⟩ :=
    step_fires_at_once crowded after succeeded
  cases state
  exact ⟨succeeded, ⟨_, fires⟩, rfl, rfl, rfl, rfl, values, logged _ Stimulus.logs,
    chained Stimulus.retains (Bus.ofNat 8 4) rfl⟩

end Session

end CoreBench
