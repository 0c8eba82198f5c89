import CoreBench.Proofs.Stepping

/-!
Requests that let no time pass. To look at the strobe, to take a snapshot and to drive
interrupts is to read and to write signals of the probe. It keeps the settings and the
counter of the core, and of the probe whatever reads and writes keep. A step consists of
such requests, so it keeps them as well.
-/

namespace CoreBench

/-- A property of probes that no read and no write of a signal takes away. -/
structure Probe.Lasting {P : Type} [Probe P] (holds : P → Prop) : Prop where
  read : ∀ probe path, holds probe → holds (Probe.read probe path).2
  write : ∀ probe path value, holds probe → holds (Probe.write probe path value).2

theorem Probe.Lasting.trivial {P : Type} [Probe P] : Probe.Lasting (fun _ : P => True) :=
  ⟨fun _ _ _ => .intro, fun _ _ _ _ => .intro⟩

namespace Processor

variable {P : Type}

/-- From one core to another no time has passed. -/
structure Still (holds : P → Prop) (before after : Processor P) : Prop where
  config : after.config = before.config
  cycles : after.cycles = before.cycles
  probe : holds before.probe → holds after.probe

variable {holds : P → Prop}

theorem Still.refl (processor : Processor P) : Still holds processor processor :=
  ⟨rfl, rfl, id⟩

theorem Still.trans {before middle after : Processor P} (first : Still holds before middle)
    (second : Still holds middle after) : Still holds before after :=
  ⟨second.config.trans first.config, second.cycles.trans first.cycles, second.probe ∘ first.probe⟩

variable [Probe P]

theorem strobe_still (lasting : Probe.Lasting holds) (path? : Option String)
    (processor : Processor P) : Still holds processor (processor.strobe path?).2 := by
  unfold strobe
  split
  next => exact .refl processor
  next path =>
      have kept := lasting.read processor.probe path
      split
      next error probe read => exact ⟨rfl, rfl, by rwa [read] at kept⟩
      next value probe read => exact ⟨rfl, rfl, by rwa [read] at kept⟩

theorem read_from_keeps (reads : ∀ probe path, holds probe → holds (Probe.read probe path).2)
    (path : Nat → String) (first count : Nat) (values : List Bus) (probe : P)
    (start : holds probe) :
    holds (readFrom path first count values probe).2 := by
  induction count generalizing first values probe with
  | zero => exact start
  | succ count ih =>
      have kept := reads probe (path first) start
      rw [readFrom]
      split
      next error after read => rwa [read] at kept
      next value after read =>
          rw [read] at kept
          exact ih (first + 1) (value :: values) after kept

/-- A snapshot is taken by reads alone. -/
theorem state_still (reads : ∀ probe path, holds probe → holds (Probe.read probe path).2)
    (processor : Processor P) : Still holds processor processor.state.2 := by
  rw [state]
  split
  next => exact .refl processor
  next =>
      have kept := read_from_keeps reads (sampledPath processor.config) 0
        (sampleSize processor.config) [] processor.probe
      split
      next error probe read => exact ⟨rfl, rfl, by rwa [read] at kept⟩
      next values probe read => exact ⟨rfl, rfl, by rwa [read] at kept⟩

theorem set_irqs_still (lasting : Probe.Lasting holds) (processor : Processor P)
    (update : IrqUpdate) : Still holds processor (processor.setIrqs update).2 := by
  have kept := lasting.read processor.probe processor.config.wiring.irq
  rw [setIrqs]
  dsimp only
  split
  next error probe read => exact ⟨rfl, rfl, by rwa [read] at kept⟩
  next current probe read =>
      rw [read] at kept
      exact ⟨rfl, rfl, fun start => lasting.write probe _ _ (kept start)⟩

end Processor

namespace Session

variable {P : Type} [Probe P] {holds : P → Prop}

/-- What the firing of one command keeps, the firing of many keeps. -/
theorem fire_all_keeps (keeps : Session P → Prop) (snapshot : Snapshot)
    (firing : ∀ session command, keeps session → keeps (session.fire snapshot command).2)
    (indices : List Nat) (session : Session P) (start : keeps session) :
    keeps (fireAll snapshot session indices).2 := by
  induction indices generalizing session with
  | nil => exact start
  | cons index rest ih =>
      rw [fireAll]
      split
      next => exact ih session start
      next command _ =>
          have kept := firing session command start
          split
          next error after fired => rwa [fired] at kept
          next after fired =>
              rw [fired] at kept
              exact ih after kept

theorem fire_still (lasting : Probe.Lasting holds) (session : Session P) (snapshot : Snapshot)
    (command : Command) :
    Processor.Still holds session.processor (session.fire snapshot command).2.processor := by
  rw [fire]
  split
  next update _ => exact Processor.set_irqs_still lasting session.processor update
  next => exact .refl session.processor

/-- A step fires commands within the present cycle. -/
theorem step_still (lasting : Probe.Lasting holds) (session : Session P) :
    Processor.Still holds session.processor session.step.2.processor := by
  have sampled := Processor.state_still lasting.read session.processor
  rw [step]
  split
  next error processor failed => rwa [failed] at sampled
  next snapshot processor read =>
      rw [read] at sampled
      exact fire_all_keeps (fun after => Processor.Still holds session.processor after.processor)
        snapshot (fun between command kept => kept.trans (fire_still lasting between snapshot command))
        _ _ sampled

end Session

end CoreBench
