import CoreBench.Probe.Replay
import CoreBench.Probe.Stimulus
import CoreBench.Proofs.Budget
import CoreBench.Proofs.Machine
import CoreBench.Proofs.Recall
import CoreBench.Proofs.Tallies

/-!
A run on the machine. Every request of a run is made once more with operations that the
machine can stop at. The entries of the queue are for commands of the bench that runs, the
operands of its commands fit the core, and the cycles do not fall behind the start of the
run. A step keeps all of this. So the machine stops only where it counts one more passed
comparison than a word holds, and else the run is that of the model.
-/

namespace CoreBench

open Machine

/-- A probe with requests as the machine makes them. In a sound state they have results, the
same as in the model, and lead to sound states. -/
class MachineProbe (P : Type) [Probe P] where
  read? : P → String → Option (Except ProbeError Bus × P)
  write? : P → String → Bus → Option (Except ProbeError Unit × P)
  advance? : P → Nat → Option (Except ProbeError Unit × P)
  Sound : P → Prop
  read_sound (probe : P) (path : String) (sound : Sound probe) :
    read? probe path = some (Probe.read probe path) ∧ Sound (Probe.read probe path).2
  write_sound (probe : P) (path : String) (value : Bus) (sound : Sound probe) :
    write? probe path value = some (Probe.write probe path value) ∧
      Sound (Probe.write probe path value).2
  advance_sound (probe : P) (units : Nat) (sound : Sound probe) :
    advance? probe units = some (Probe.advance probe units) ∧
      Sound (Probe.advance probe units).2

/-- A stimulus has no operation to stop at: it checks the one addition that it makes. -/
instance : MachineProbe Stimulus where
  read? probe path := some (Probe.read probe path)
  write? probe path value := some (Probe.write probe path value)
  advance? probe units := some (Probe.advance probe units)
  Sound _ := True
  read_sound _ _ _ := ⟨rfl, trivial⟩
  write_sound _ _ _ _ := ⟨rfl, trivial⟩
  advance_sound _ _ _ := ⟨rfl, trivial⟩

theorem narrow_le {α : Type} (test : α → Bool) (xs : List α) (low high : Nat)
    (order : low ≤ high) : narrow test xs low high ≤ high := by
  fun_induction narrow test xs low high with
  | case1 low high room middle passes ih => exact ih (by omega)
  | case2 low high room middle fails ih => exact Nat.le_trans (ih (by omega)) (by omega)
  | case3 low high done => exact order

/-- The value of the sample in front of the first later one. -/
def Signal.valueAt? (signal : Signal) (time : Nat) : Option Bus :=
  let place := signal.samplesUpTo time
  if place = 0 then some (Bus.filled signal.width .unknown)
  else do
    let last ← difference? place 1
    let sample ← signal.history[last]?
    return sample.value

theorem Signal.value_at_eq (signal : Signal) (time : Nat) :
    signal.valueAt? time = some (signal.valueAt time) := by
  have inside : signal.samplesUpTo time ≤ signal.history.length :=
    narrow_le _ signal.history 0 _ (Nat.zero_le _)
  rw [valueAt?, valueAt]
  generalize signal.samplesUpTo time = place at inside ⊢
  cases place with
  | zero => rfl
  | succ last =>
      have found : signal.history[last]? = some signal.history[last] :=
        List.getElem?_eq_getElem inside
      have latest : (signal.history.take (last + 1)).getLast? = some signal.history[last] := by
        rw [List.take_succ_eq_append_getElem inside, List.getLast?_concat]
      rw [if_neg (Nat.succ_ne_zero last), latest, difference?, if_pos (Nat.le_add_left 1 last),
        Nat.add_sub_cancel, Option.bind_eq_bind, Option.bind_some, found]
      rfl

namespace Replay

/-- What a search finds or what is remembered is the place of a signal. -/
def read? (replay : Replay) (path : String) : Option (Except ProbeError Bus × Replay) :=
  let name := normalize path
  match replay.forced.get? name with
  | some value => some (.ok value, replay)
  | none =>
      match replay.lookup name with
      | (none, replay) => some (.error (.unknownSignal name), replay)
      | (some index, replay) => do
          let signal ← replay.waveform.signals[index]?
          let value ← signal.valueAt? replay.nowFs
          return (.ok value, replay)

def advance? (replay : Replay) (units : Nat) : Option (Except ProbeError Unit × Replay) := do
  let requested := min (replay.now + units) (wordLimit - 1)
  let last ← quotient? replay.waveform.endTime replay.unit
  if last < requested then return (.error (.endOfTrace last requested), replay)
  else return (.ok (), { replay with now := requested })

theorem read_eq (replay : Replay) (path : String) :
    replay.read? path = some (replay.read path) := by
  have answer := replay.lookup_answer (normalize path)
  have kept := replay.lookup_twin (normalize path)
  rw [read?, read]
  cases replay.forced.get? (normalize path) with
  | some value => rfl
  | none =>
      dsimp only
      generalize replay.lookup (normalize path) = found at answer kept
      obtain ⟨index?, after⟩ := found
      cases index? with
      | none => rfl
      | some index =>
          have inside := Waveform.resolve_inside answer.symm
          rw [← kept.waveform] at inside
          simp only [Option.bind_some, List.getElem?_eq_getElem inside, Option.bind_eq_bind,
            Signal.value_at_eq]
          rfl

theorem advance_eq (replay : Replay) (units : Nat) (whole : 1 ≤ replay.unit) :
    replay.advance? units = some (replay.advance units) := by
  rw [advance?, advance, endTime, quotient?, if_neg (Nat.ne_of_gt whole)]
  simp only [Option.bind_eq_bind, Option.bind_some]
  split <;> rfl

theorem advance_unit (replay : Replay) (units : Nat) :
    (replay.advance units).2.unit = replay.unit := by
  rw [advance]
  split <;> rfl

end Replay

/-- A replay divides by its time unit, which is at least one from its start on. -/
instance : MachineProbe Replay where
  read? := Replay.read?
  write? replay path value := some (Probe.write replay path value)
  advance? := Replay.advance?
  Sound replay := 1 ≤ replay.unit
  read_sound replay path sound :=
    ⟨replay.read_eq path, (replay.read_twin path).2.unit.symm ▸ sound⟩
  write_sound _ _ _ sound := ⟨rfl, sound⟩
  advance_sound replay units sound :=
    ⟨replay.advance_eq units sound, (replay.advance_unit units).symm ▸ sound⟩

/-- One of two kinds of probes. -/
instance {P Q : Type} [Probe P] [Probe Q] : Probe (P ⊕ Q) where
  read
    | .inl probe, path => (Probe.read probe path).map id .inl
    | .inr probe, path => (Probe.read probe path).map id .inr
  write
    | .inl probe, path, value => (Probe.write probe path value).map id .inl
    | .inr probe, path, value => (Probe.write probe path value).map id .inr
  advance
    | .inl probe, units => (Probe.advance probe units).map id .inl
    | .inr probe, units => (Probe.advance probe units).map id .inr
  now
    | .inl probe => Probe.now probe
    | .inr probe => Probe.now probe

theorem answer_embedded {A P Q : Type} (embed : P → Q) {asked : Option (A × P)} {answer : A × P}
    {sound : Prop} (answered : asked = some answer ∧ sound) :
    asked.map (Prod.map id embed) = some (answer.map id embed) ∧ sound :=
  ⟨congrArg (Option.map (Prod.map id embed)) answered.1, answered.2⟩

instance {P Q : Type} [Probe P] [Probe Q] [MachineProbe P] [MachineProbe Q] :
    MachineProbe (P ⊕ Q) where
  read?
    | .inl probe, path => (MachineProbe.read? probe path).map (.map id .inl)
    | .inr probe, path => (MachineProbe.read? probe path).map (.map id .inr)
  write?
    | .inl probe, path, value => (MachineProbe.write? probe path value).map (.map id .inl)
    | .inr probe, path, value => (MachineProbe.write? probe path value).map (.map id .inr)
  advance?
    | .inl probe, units => (MachineProbe.advance? probe units).map (.map id .inl)
    | .inr probe, units => (MachineProbe.advance? probe units).map (.map id .inr)
  Sound
    | .inl probe => MachineProbe.Sound probe
    | .inr probe => MachineProbe.Sound probe
  read_sound
    | .inl probe, path, sound =>
        answer_embedded (Sum.inl : P → P ⊕ Q)
          (MachineProbe.read_sound probe path sound)
    | .inr probe, path, sound =>
        answer_embedded (Sum.inr : Q → P ⊕ Q)
          (MachineProbe.read_sound probe path sound)
  write_sound
    | .inl probe, path, value, sound =>
        answer_embedded (Sum.inl : P → P ⊕ Q)
          (MachineProbe.write_sound probe path value sound)
    | .inr probe, path, value, sound =>
        answer_embedded (Sum.inr : Q → P ⊕ Q)
          (MachineProbe.write_sound probe path value sound)
  advance_sound
    | .inl probe, units, sound =>
        answer_embedded (Sum.inl : P → P ⊕ Q)
          (MachineProbe.advance_sound probe units sound)
    | .inr probe, units, sound =>
        answer_embedded (Sum.inr : Q → P ⊕ Q)
          (MachineProbe.advance_sound probe units sound)

variable {P : Type} [Probe P] [MachineProbe P]

namespace Processor

/-- A core of a configuration behind a sound probe, not before the cycle `start`. -/
structure Ready (config : Config) (start : Nat) (processor : Processor P) : Prop where
  configured : processor.config = config
  sound : MachineProbe.Sound processor.probe
  begun : start ≤ processor.cycles

def readFrom? (path : Nat → String) :
    Nat → Nat → List Bus → P → Option (Except ProbeError (List Bus) × P)
  | _, 0, values, probe => some (.ok values.reverse, probe)
  | first, count + 1, values, probe =>
      match MachineProbe.read? probe (path first) with
      | none => none
      | some (.error error, probe) => some (.error error, probe)
      | some (.ok value, probe) => readFrom? path (first + 1) count (value :: values) probe

def number? (processor : Processor P) (value : Bus) : Option (Option Nat) :=
  Bus.number? 0 0 (processor.orient value).levels

def state? (processor : Processor P) : Option (Except ProbeError Snapshot × Processor P) :=
  match processor.sampled with
  | some snapshot => some (.ok snapshot, processor)
  | none =>
      match readFrom? (sampledPath processor.config) 0 (sampleSize processor.config) []
          processor.probe with
      | none => none
      | some (.error error, probe) => some (.error error, { processor with probe })
      | some (.ok values, probe) =>
          (values.mapM processor.number?).map fun numbers =>
            let snapshot := snapshotOf processor.config numbers
            (.ok snapshot, { processor with probe, sampled := some snapshot })

def pass? (processor : Processor P) (units : Nat) : Option (Except ProbeError Unit × Processor P) :=
  (MachineProbe.advance? processor.probe units).map fun (result, probe) =>
    (result, { processor with probe, sampled := none })

def runCycle? (processor : Processor P) : Option (Except ProbeError Unit × Processor P) :=
  match processor.pass? processor.config.timing.cycle with
  | none => none
  | some (.error error, processor) => some (.error error, processor)
  | some (.ok (), processor) =>
      (sum? wordLimit processor.cycles 1).map fun cycles => (.ok (), { processor with cycles })

def strobe? (path? : Option String) (processor : Processor P) :
    Option (Except ProbeError Bool × Processor P) :=
  match path? with
  | none => some (.ok true, processor)
  | some path =>
      match MachineProbe.read? processor.probe path with
      | none => none
      | some (.error error, probe) => some (.error error, { processor with probe })
      | some (.ok value, probe) =>
          (Bus.gather? 0 0 (value.levels.take 64)).map fun number =>
            (.ok (0 < number), { processor with probe })

def setIrqs? (processor : Processor P) (update : IrqUpdate) :
    Option (Except ProbeError Unit × Processor P) :=
  let path := processor.config.wiring.irq
  match MachineProbe.read? processor.probe path with
  | none => none
  | some (.error error, probe) => some (.error error, { processor with probe })
  | some (.ok current, probe) => do
      let number ← Bus.gather? 0 0 ((processor.orient current).levels.take 64)
      let lines ← Bus.spread? (update.apply number) 0 processor.config.arch.irqLines
      let (result, probe) ← MachineProbe.write? probe path (processor.orient ⟨lines⟩)
      return (result, { processor with probe })

variable {config : Config} {start : Nat} {processor : Processor P}

theorem read_from_sound (path : Nat → String) (first count : Nat) (values : List Bus) (probe : P)
    (sound : MachineProbe.Sound probe) :
    readFrom? path first count values probe = some (readFrom path first count values probe) ∧
      MachineProbe.Sound (readFrom path first count values probe).2 := by
  induction count generalizing first values probe with
  | zero => exact ⟨rfl, sound⟩
  | succ count ih =>
      obtain ⟨same, later⟩ := MachineProbe.read_sound probe (path first) sound
      rw [readFrom?, readFrom, same]
      generalize Probe.read probe (path first) = answer at later
      obtain ⟨result, next⟩ := answer
      cases result with
      | error error => exact ⟨rfl, later⟩
      | ok value => exact ih (first + 1) (value :: values) next later

theorem Ready.state (ready : processor.Ready config start) :
    processor.state? = some processor.state ∧ processor.state.2.Ready config start := by
  obtain ⟨same, later⟩ := read_from_sound (sampledPath processor.config) 0
    (sampleSize processor.config) [] processor.probe ready.sound
  rw [state?, Processor.state, same]
  cases processor.sampled with
  | some snapshot => exact ⟨rfl, ready⟩
  | none =>
      dsimp only
      generalize readFrom (sampledPath processor.config) 0 (sampleSize processor.config) []
        processor.probe = read at later
      obtain ⟨result, probe⟩ := read
      cases result with
      | error error => exact ⟨rfl, { ready with sound := later }⟩
      | ok values =>
          have numbers : values.mapM processor.number? =
              some (values.map fun value => (processor.orient value).toNat?) := by
            have each : processor.number? = fun value => pure (processor.orient value).toNat? :=
              funext fun value => Bus.number_to_nat (processor.orient value)
            rw [each, List.mapM_pure]
            rfl
          dsimp only
          rw [numbers]
          exact ⟨rfl, { ready with sound := later }⟩

theorem Ready.pass (ready : processor.Ready config start) (units : Nat) :
    processor.pass? units = some (processor.pass units) ∧
      (processor.pass units).2.Ready config start := by
  obtain ⟨same, later⟩ := MachineProbe.advance_sound processor.probe units ready.sound
  rw [pass?, Processor.pass, same]
  exact ⟨rfl, { ready with sound := later }⟩

/-- The cycle is counted if there is room for it. -/
theorem Ready.run_cycle (ready : processor.Ready config start)
    (room : ∀ next, processor.runCycle = (.ok (), next) → next.cycles < wordLimit) :
    processor.runCycle? = some processor.runCycle ∧ processor.runCycle.2.Ready config start := by
  obtain ⟨same, later⟩ := ready.pass processor.config.timing.cycle
  revert room
  rw [runCycle?, runCycle, same]
  generalize processor.pass processor.config.timing.cycle = passed at later
  obtain ⟨result, next⟩ := passed
  cases result with
  | error error => exact fun _ => ⟨rfl, later⟩
  | ok =>
      intro room
      have fits : next.cycles + 1 < wordLimit := room _ rfl
      dsimp only
      rw [sum?, if_pos fits]
      exact ⟨rfl, { later with begun := Nat.le_succ_of_le later.begun }⟩

theorem Ready.strobe (ready : processor.Ready config start) (path? : Option String) :
    processor.strobe? path? = some (processor.strobe path?) ∧
      (processor.strobe path?).2.Ready config start := by
  cases path? with
  | none => exact ⟨rfl, ready⟩
  | some path =>
      obtain ⟨same, later⟩ := MachineProbe.read_sound processor.probe path ready.sound
      simp only [strobe?, Processor.strobe, same]
      generalize Probe.read processor.probe path = answer at later
      obtain ⟨result, probe⟩ := answer
      cases result with
      | error error => exact ⟨rfl, { ready with sound := later }⟩
      | ok value =>
          dsimp only
          rw [Bus.gather_driven]
          exact ⟨rfl, { ready with sound := later }⟩

theorem Ready.set_irqs (ready : processor.Ready config start) (narrow : config.arch.irqLines ≤ 64)
    (update : IrqUpdate) :
    processor.setIrqs? update = some (processor.setIrqs update) ∧
      (processor.setIrqs update).2.Ready config start := by
  obtain ⟨same, later⟩ := MachineProbe.read_sound processor.probe processor.config.wiring.irq
    ready.sound
  simp only [setIrqs?, setIrqs, same]
  generalize Probe.read processor.probe processor.config.wiring.irq = answer at later
  obtain ⟨result, probe⟩ := answer
  cases result with
  | error error => exact ⟨rfl, { ready with sound := later }⟩
  | ok current =>
      have lines := Bus.spread_bits (update.apply (processor.orient current).driven) 0
        processor.config.arch.irqLines (.inl (by rw [ready.configured]; omega))
      obtain ⟨written, last⟩ := MachineProbe.write_sound probe processor.config.wiring.irq
        (processor.orient (Bus.ofNat (update.apply (processor.orient current).driven)
          processor.config.arch.irqLines)) later
      simp only [Bus.gather_driven, Option.bind_eq_bind, Option.bind_some, lines,
        Nat.shiftRight_zero]
      rw [Bus.ofNat] at written last ⊢
      rw [written]
      exact ⟨rfl, { ready with sound := last }⟩

end Processor

/-- The entries that stay, with one step less to wait. -/
def Pending.countDown? (queue : List Pending) : Option (List Pending) :=
  (queue.filter fun entry => entry.remaining ≠ 0).mapM fun entry =>
    (difference? entry.remaining 1).map fun remaining => { entry with remaining }

theorem Pending.count_down_eq (queue : List Pending) :
    countDown? queue = some (countDown queue) := by
  rw [countDown?, countDown]
  induction queue with
  | nil => rfl
  | cons entry rest ih =>
      rw [List.filter_cons]
      split
      next waits =>
        have positive : 1 ≤ entry.remaining := Nat.one_le_iff_ne_zero.mpr (of_decide_eq_true waits)
        rw [List.mapM_cons, ih, difference?, if_pos positive]
        rfl
      next => exact ih

namespace Tally

/-- Adds an outcome where the comparisons that pass are counted in a word. -/
def record? (tally : Tally) : Outcome → Option Tally
  | .passed => (sum? wordLimit tally.passed 1).map fun passed => { tally with passed }
  | outcome => some (tally.record outcome)

/-- An answer, if the machine could count up to this tally. -/
def fits? {α : Type} (tally : Tally) (answer : α) : Option α :=
  if tally.passed < wordLimit then some answer else none

theorem fits_of_lt {α : Type} {tally : Tally} (below : tally.passed < wordLimit) (answer : α) :
    tally.fits? answer = some answer :=
  if_pos below

/-- What could not be counted stays in the tally, whatever comes after it. -/
theorem fits_bind {α β : Type} {tally later : Tally} (grows : tally.passed ≤ later.passed)
    (answer : α) (next : α → Option β) (ended : β)
    (leads : tally.passed < wordLimit → next answer = later.fits? ended) :
    (tally.fits? answer).bind next = later.fits? ended := by
  rcases Nat.lt_or_ge tally.passed wordLimit with below | above
  · rw [fits_of_lt below, Option.bind_some]
    exact leads below
  · rw [fits?, fits?, if_neg (Nat.not_lt.mpr above),
      if_neg (Nat.not_lt.mpr (Nat.le_trans above grows))]
    rfl

theorem record_eq {tally : Tally} (below : tally.passed < wordLimit) (outcome : Outcome) :
    tally.record? outcome = (tally.record outcome).fits? (tally.record outcome) := by
  cases outcome with
  | passed =>
      rw [record?, sum?, fits?, record]
      split <;> rfl
  | failed message => exact (fits_of_lt below _).symm
  | finished => exact (fits_of_lt below _).symm
  | interrupt update => exact (fits_of_lt below _).symm

end Tally

namespace Session

def fire? (session : Session P) (snapshot : Snapshot) (command : Command) :
    Option (Except ProbeError Unit × Session P) :=
  match command.execute? snapshot session.processor.config.arch with
  | none => none
  | some (.interrupt update) =>
      (session.processor.setIrqs? update).map fun (result, processor) =>
        (result, { session with processor })
  | some outcome =>
      (session.tally.record? outcome).map fun tally => (.ok (), { session with tally })

def fireAll? (snapshot : Snapshot) :
    Session P → List Nat → Option (Except ProbeError Unit × Session P)
  | session, [] => some (.ok (), session)
  | session, index :: rest =>
      match session.bench.commands[index]? with
      | none => none
      | some command =>
          (session.fire? snapshot command).bind fun
            | (.error error, session) => some (.error error, session)
            | (.ok (), session) => fireAll? snapshot session rest

def enroll? (session : Session P) (snapshot : Snapshot) : Option (List Pending) :=
  match snapshot.pc with
  | none => some session.queue
  | some pc =>
      (quotient? pc (max session.processor.config.arch.stride 1)).map fun address =>
        session.queue ++ Pending.matching session.bench.commands address

def step? (session : Session P) : Option (Except ProbeError Unit × Session P) :=
  match session.processor.state? with
  | none => none
  | some (.error error, processor) => some (.error error, { session with processor })
  | some (.ok snapshot, processor) => do
      let queue ← session.enroll? snapshot
      let waiting ← Pending.countDown? queue
      fireAll? snapshot { session with processor, queue := waiting } (Pending.due queue)

def moveOn? (session : Session P) : Option (Progress P) :=
  match session.processor.runCycle? with
  | none => none
  | some (.error error, processor) => some (.stopped (.error (.probe error)) { session with processor })
  | some (.ok (), processor) => some (.going { session with processor })

def tick? (strobePath? : Option String) (limit : Option Nat) (start : Nat) (session : Session P) :
    Option (Progress P) :=
  match session.processor.strobe? strobePath? with
  | none => none
  | some (.error error, processor) =>
      some (.stopped (.error (.probe error)) { session with processor })
  | some (.ok false, processor) =>
      match limit.filter fun limit => min (start + limit) (wordLimit - 1) ≤ processor.cycles with
      | some limit => some (.stopped (.error (.cycleLimit limit)) { session with processor })
      | none => moveOn? { session with processor }
  | some (.ok true, processor) =>
      (step? { session with processor }).bind fun
        | (.error error, session) => some (.stopped (.error (.probe error)) session)
        | (.ok (), session) =>
            match difference? session.processor.cycles start with
            | none => none
            | some used =>
                if session.tally.complete then some (.stopped (.ok used) session)
                else
                  match limit.filter fun limit => limit ≤ used with
                  | some limit => some (.stopped (.error (.cycleLimit limit)) session)
                  | none => moveOn? session

/-- The machine stops when it has no number left for the next cycle. -/
def loop? (strobePath? : Option String) (limit : Option Nat) (start : Nat) :
    Nat → Session P → Option (Except RunError Nat × Session P)
  | 0, _ => none
  | fuel + 1, session =>
      (tick? strobePath? limit start session).bind fun
        | .stopped result session => some (result, session)
        | .going session => loop? strobePath? limit start fuel session

def run? (limit : Option Nat) (session : Session P) : Option (Except RunError Nat × Session P) :=
  let session := session.reset.clear
  match session.processor.pass? session.processor.config.timing.settle with
  | none => none
  | some (.error error, processor) => some (.error (.probe error), { session with processor })
  | some (.ok (), processor) =>
      loop? processor.config.wiring.strobePath? limit session.processor.cycles
        (wordLimit - processor.cycles) { session with processor }

/-- A session in a run that began in the cycle `start`. -/
structure Ready (config : Config) (start : Nat) (session : Session P) : Prop where
  core : session.processor.Ready config start
  commands : ∀ command ∈ session.bench.commands, command.Within config.arch
  queue : ∀ entry ∈ session.queue, entry.command < session.bench.commands.length

variable {config : Config} {start : Nat} {session : Session P}

theorem Ready.fire (ready : session.Ready config start) (usable : config.Usable)
    (snapshot : Snapshot) (command : Command) (member : command ∈ session.bench.commands) :
    let fired := session.fire snapshot command
    (session.tally.passed < wordLimit →
      session.fire? snapshot command = fired.2.tally.fits? fired) ∧
      fired.2.Ready config start := by
  have executed := command.execute_eq snapshot session.processor.config.arch
    (by rw [ready.core.configured]; exact usable.wordSize_le)
    (by rw [ready.core.configured]; exact ready.commands command member)
  rw [fire?, Session.fire, executed]
  cases command.execute snapshot session.processor.config.arch with
  | passed =>
      refine ⟨fun below => ?_, { ready with }⟩
      dsimp only
      rw [Tally.record_eq below, Tally.fits?, Tally.fits?]
      split <;> rfl
  | failed message => exact ⟨fun below => (Tally.fits_of_lt below _).symm, { ready with }⟩
  | finished => exact ⟨fun below => (Tally.fits_of_lt below _).symm, { ready with }⟩
  | interrupt update =>
      obtain ⟨same, core⟩ := ready.core.set_irqs usable.irqLines_le update
      dsimp only
      rw [same]
      exact ⟨fun below => (Tally.fits_of_lt below _).symm, { ready with core }⟩

theorem Ready.fire_all (usable : config.Usable) (snapshot : Snapshot) (indices : List Nat)
    (ready : session.Ready config start)
    (inside : ∀ index ∈ indices, index < session.bench.commands.length) :
    let fired := fireAll snapshot session indices
    (session.tally.passed < wordLimit →
      fireAll? snapshot session indices = fired.2.tally.fits? fired) ∧
      fired.2.Ready config start := by
  induction indices generalizing session with
  | nil => exact ⟨fun below => (Tally.fits_of_lt below _).symm, ready⟩
  | cons index rest ih =>
      obtain ⟨here, inside⟩ := List.forall_mem_cons.mp inside
      have found : session.bench.commands[index]? = some session.bench.commands[index] :=
        List.getElem?_eq_getElem here
      obtain ⟨same, later⟩ := ready.fire usable snapshot session.bench.commands[index]
        (List.getElem_mem here)
      have bench := session.fire_bench snapshot session.bench.commands[index]
      rw [fireAll?, fireAll, found]
      dsimp only
      generalize session.fire snapshot session.bench.commands[index] = fired at same later bench
      obtain ⟨result, next⟩ := fired
      dsimp only at same later bench ⊢
      cases result with
      | error error =>
          refine ⟨fun below => ?_, later⟩
          rw [same below]
          exact Tally.fits_bind (Nat.le_refl _) _ _ _ fun fits => (Tally.fits_of_lt fits _).symm
      | ok =>
          obtain ⟨equal, ended⟩ := ih later (by rw [bench]; exact inside)
          obtain ⟨grows, -⟩ := fire_all_passed snapshot rest next
          refine ⟨fun below => ?_, ended⟩
          rw [same below]
          exact Tally.fits_bind grows _ _ _ equal

/-- The commands of an instruction are commands of the bench. -/
theorem matching_inside (commands : List Command) (address : Nat) (entry : Pending)
    (member : entry ∈ Pending.matching commands address) : entry.command < commands.length := by
  obtain ⟨pair, among, rfl⟩ := List.mem_map.mp member
  exact (List.mem_zipIdx' (List.mem_filter.mp among).1).1

theorem Ready.enroll (ready : session.Ready config start) (snapshot : Snapshot) :
    session.enroll? snapshot = some (session.enroll snapshot) ∧
      ∀ entry ∈ session.enroll snapshot, entry.command < session.bench.commands.length := by
  rw [enroll?, Session.enroll, Snapshot.address?]
  cases snapshot.pc with
  | none => exact ⟨rfl, ready.queue⟩
  | some pc =>
      have whole : max session.processor.config.arch.stride 1 ≠ 0 := by omega
      dsimp only
      rw [quotient?, if_neg whole]
      refine ⟨rfl, ?_⟩
      intro entry member
      rcases List.mem_append.mp member with waiting | fresh
      · exact ready.queue entry waiting
      · exact matching_inside _ _ entry fresh

theorem Ready.step (ready : session.Ready config start) (usable : config.Usable) :
    (session.tally.passed < wordLimit →
      session.step? = session.step.2.tally.fits? session.step) ∧
      session.step.2.Ready config start := by
  obtain ⟨same, core⟩ := ready.core.state
  rw [step?, Session.step, same]
  generalize session.processor.state = sampled at core
  obtain ⟨result, processor⟩ := sampled
  cases result with
  | error error => exact ⟨fun below => (Tally.fits_of_lt below _).symm, { ready with core }⟩
  | ok snapshot =>
      obtain ⟨enrolled, inside⟩ := ready.enroll snapshot
      -- Counting down and firing invent no entries.
      have waiting : ∀ entry ∈ Pending.countDown (session.enroll snapshot),
          entry.command < session.bench.commands.length := by
        intro entry member
        obtain ⟨earlier, among, rfl⟩ := List.mem_map.mp member
        exact inside earlier (List.mem_filter.mp among).1
      have due : ∀ index ∈ Pending.due (session.enroll snapshot),
          index < session.bench.commands.length := by
        intro index member
        obtain ⟨entry, among, rfl⟩ := List.mem_map.mp member
        exact inside entry (List.mem_filter.mp among).1
      have next : Ready config start
          { session with processor, queue := Pending.countDown (session.enroll snapshot) } :=
        { core, commands := ready.commands, queue := waiting }
      simp only [enrolled, Pending.count_down_eq, Option.bind_eq_bind, Option.bind_some]
      exact next.fire_all usable snapshot _ due

/-- The cycle into which the session goes on has a number. -/
def Progress.Room : Progress P → Prop
  | .going session => session.processor.cycles < wordLimit
  | .stopped _ _ => True

theorem Ready.move_on (ready : session.Ready config start) (room : session.moveOn.Room) :
    session.moveOn? = some session.moveOn ∧ session.moveOn.present.Ready config start := by
  have counted : ∀ next, session.processor.runCycle = (.ok (), next) →
      next.cycles < wordLimit := by
    intro next ran
    rw [moveOn, ran] at room
    exact room
  obtain ⟨same, core⟩ := ready.core.run_cycle counted
  rw [moveOn?, moveOn, same]
  generalize session.processor.runCycle = ran at core
  obtain ⟨result, processor⟩ := ran
  cases result with
  | error error => exact ⟨rfl, { ready with core }⟩
  | ok => exact ⟨rfl, { ready with core }⟩

theorem Ready.limited (ready : session.Ready config start) (spent? : Option Nat) :
    let progress : Progress P :=
      match spent? with
      | some limit => .stopped (.error (.cycleLimit limit)) session
      | none => session.moveOn
    progress.Room →
      (session.tally.passed < wordLimit →
        (match spent? with
          | some limit => some (.stopped (.error (.cycleLimit limit)) session)
          | none => session.moveOn?) = progress.present.tally.fits? progress) ∧
        progress.present.Ready config start := by
  intro progress room
  have tally : progress.present.tally = session.tally := (session.limit_pauses spent?).tally
  have moved : (match spent? with
      | some limit => some (.stopped (.error (.cycleLimit limit)) session)
      | none => session.moveOn?) = some progress ∧ progress.present.Ready config start := by
    cases spent? with
    | some limit => exact ⟨rfl, ready⟩
    | none => exact ready.move_on room
  rw [tally]
  exact ⟨fun below => moved.1.trans (Tally.fits_of_lt below _).symm, moved.2⟩

theorem Ready.tick (ready : session.Ready config start) (usable : config.Usable)
    (strobePath? : Option String) (limit : Option Nat)
    (room : (Session.tick strobePath? limit start session).Room) :
    let progress := Session.tick strobePath? limit start session
    (session.tally.passed < wordLimit →
      tick? strobePath? limit start session = progress.present.tally.fits? progress) ∧
      progress.present.Ready config start := by
  obtain ⟨same, core⟩ := ready.core.strobe strobePath?
  revert room
  rw [tick?, Session.tick, same]
  generalize session.processor.strobe strobePath? = strobed at core
  obtain ⟨result, processor⟩ := strobed
  have waiting : Ready config start { session with processor } := { ready with core }
  rcases result with error | _ | _
  · exact fun _ => ⟨fun below => (Tally.fits_of_lt below _).symm, waiting⟩
  · exact waiting.limited _
  · obtain ⟨stepped, later⟩ := waiting.step usable
    dsimp only at stepped ⊢
    generalize Session.step { session with processor } = after at stepped later
    obtain ⟨result, next⟩ := after
    cases result with
    | error error =>
        refine fun _ => ⟨fun below => ?_, later⟩
        rw [stepped below]
        exact Tally.fits_bind (Nat.le_refl _) _ _ _ fun fits => (Tally.fits_of_lt fits _).symm
    | ok =>
        have begun : start ≤ next.processor.cycles := later.core.begun
        dsimp only
        cases complete : next.tally.complete with
        | true =>
            refine fun _ => ⟨fun below => ?_, later⟩
            rw [stepped below]
            refine Tally.fits_bind (Nat.le_refl _) _ _ _ fun fits => ?_
            dsimp only
            rw [difference?, if_pos begun, complete]
            exact (Tally.fits_of_lt fits _).symm
        | false =>
            intro room
            have spent := later.limited
              (limit.filter fun limit => limit ≤ next.processor.cycles - start) room
            have tally := (next.limit_pauses
              (limit.filter fun limit => limit ≤ next.processor.cycles - start)).tally
            refine ⟨fun below => ?_, spent.2⟩
            rw [stepped below]
            refine Tally.fits_bind (Nat.le_of_eq (congrArg Tally.passed tally.symm)) _ _ _
              fun fits => ?_
            dsimp only
            rw [difference?, if_pos begun, complete]
            exact spent.1 fits

/-- The fuel is what the counter has left, so it is not used up when the counter is not. The
induction is on the fuel. -/
theorem Ready.loop (usable : config.Usable) (strobePath? : Option String) (limit : Option Nat)
    (fuel : Nat) (ready : session.Ready config start) (below : session.tally.passed < wordLimit)
    (left : session.processor.cycles + fuel = wordLimit)
    (counted : (Session.loop strobePath? limit start fuel session).1 ≠ .error .counterFull) :
    let ended := Session.loop strobePath? limit start fuel session
    loop? strobePath? limit start fuel session = ended.2.tally.fits? ended := by
  induction fuel generalizing session with
  | zero => exact absurd rfl counted
  | succ fuel ih =>
      rw [Session.loop] at counted
      have room : (Session.tick strobePath? limit start session).Room := by
        cases ticked : Session.tick strobePath? limit start session with
        | stopped result after => trivial
        | going after =>
            have next := tick_cycles ticked
            rw [ticked] at counted
            cases fuel with
            -- This would be the cycle that has no number.
            | zero => exact absurd rfl counted
            | succ fuel =>
                show after.processor.cycles < wordLimit
                omega
      obtain ⟨same, later⟩ := ready.tick usable strobePath? limit room
      rw [loop?, Session.loop, same below]
      cases ticked : Session.tick strobePath? limit start session with
      | stopped result after =>
          exact Tally.fits_bind (Nat.le_refl _) _ _ _ fun fits => (Tally.fits_of_lt fits _).symm
      | going after =>
          have next := tick_cycles ticked
          rw [ticked] at later counted
          have rest : Stepwise start after (loopSteps strobePath? limit start fuel after)
              (Session.loop strobePath? limit start fuel after) := loop_stepwise fuel after
          obtain ⟨grows, -⟩ := rest.passed
          exact Tally.fits_bind grows _ _ _ fun fits => ih later fits (by omega) counted

/-- A run of a bench whose operands fit the core stops the machine only when it counts more
passed comparisons than a word holds, whatever was left in the queue and the tally, as long as
the cycles can be counted. -/
theorem run_on_machine (session : Session P) (limit : Option Nat)
    (usable : session.processor.config.Usable)
    (sound : MachineProbe.Sound session.processor.probe)
    (commands : ∀ command ∈ session.bench.commands,
      command.Within session.processor.config.arch)
    (counter : session.processor.cycles ≤ wordLimit)
    (counted : (session.run limit).1 ≠ .error .counterFull) :
    session.run? limit = (session.run limit).2.tally.fits? (session.run limit) := by
  have start : session.processor.Ready session.processor.config session.processor.cycles :=
    ⟨rfl, sound, Nat.le_refl _⟩
  obtain ⟨same, core⟩ := start.pass session.processor.config.timing.settle
  have kept := session.processor.settle_cycles
  revert counted
  simp only [run?, run, reset, clear, Processor.settle, same]
  rw [Processor.settle] at kept
  generalize session.processor.pass session.processor.config.timing.settle = settled at core kept
  obtain ⟨result, processor⟩ := settled
  have empty : ({} : Tally).passed < wordLimit := by decide
  cases result with
  | error error => exact fun _ => (Tally.fits_of_lt empty _).symm
  | ok =>
      intro counted
      -- The queue of an earlier bench has been cleared before anything looks into it.
      have ready : Ready session.processor.config session.processor.cycles
          (⟨session.bench, processor, {}, []⟩ : Session P) :=
        { core, commands, queue := fun _ member => absurd member List.not_mem_nil }
      exact ready.loop usable _ limit _ empty (by dsimp only at kept ⊢; omega) counted

end Session

end CoreBench
