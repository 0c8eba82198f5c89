import CoreBench.Bench.Command
import CoreBench.Config.Settings
import CoreBench.Probe.Basic

/-!
The core under test behind a probe. A snapshot of its registers is taken once in a
cycle and kept until time passes or somebody else touches the probe.
-/

namespace CoreBench

inductive RunError where
  | probe (error : ProbeError)
  | cycleLimit (limit : Nat)
  /-- The cycle counter of 64 bits is used up. -/
  | counterFull
  deriving DecidableEq, Repr

def RunError.message : RunError → String
  | probe error => error.message
  | cycleLimit limit => s!"no end directive reached within {limit} cycles"
  | counterFull => "cycle counter overflow"

structure Processor (P : Type) where
  probe : P
  config : Config
  sampled : Option Snapshot := none
  cycles : Nat := 0

namespace Processor

variable {P : Type} [Probe P]

/-- The bits of a signal in the order that the settings ask for. -/
def orient (processor : Processor P) (value : Bus) : Bus :=
  if processor.config.wiring.reversed then value.reverse else value

/-- Changes the probe from outside, which makes the snapshot out of date. -/
def touch (processor : Processor P) (change : P → P) : Processor P :=
  { processor with probe := change processor.probe, sampled := none }

/-- Reads `count` signals, those numbered from `first` on, up to the first that
fails. `values` are the bits that were read before, the latest first. -/
def readFrom (path : Nat → String) : Nat → Nat → List Bus → P → Except ProbeError (List Bus) × P
  | _, 0, values, probe => (.ok values.reverse, probe)
  | first, count + 1, values, probe =>
      match Probe.read probe (path first) with
      | (.error error, probe) => (.error error, probe)
      | (.ok value, probe) => readFrom path (first + 1) count (value :: values) probe

/-- What was read before stands in front of what is read now and changes nothing else. -/
theorem readFrom_values (path : Nat → String) (first count : Nat) (values : List Bus) (probe : P) :
    readFrom path first count values probe =
      ((readFrom path first count [] probe).1.map (values.reverse ++ ·),
        (readFrom path first count [] probe).2) := by
  induction count generalizing first values probe with
  | zero => simp [readFrom, Except.map]
  | succ count ih =>
      simp only [readFrom]
      split
      · rfl
      · rename_i value next read
        rw [ih (first + 1) (value :: values), ih (first + 1) [value]]
        cases (readFrom path (first + 1) count [] next).1 <;> simp [Except.map]

def sampleSize (config : Config) : Nat :=
  1 + config.arch.generalCount + config.arch.specialCount

/-- The path of a signal by its place in a snapshot: the program counter, then the
general and the special registers. -/
def sampledPath (config : Config) : Nat → String
  | 0 => config.wiring.pc
  | place + 1 =>
      if place < config.arch.generalCount then
        config.wiring.registerPath .general place config.arch.wordSize
      else
        config.wiring.registerPath .special (place - config.arch.generalCount)
          config.arch.wordSize

def snapshotOf (config : Config) (values : List (Option Nat)) : Snapshot :=
  let registers := values.drop 1
  { pc := values.head?.join
    general := registers.take config.arch.generalCount
    special := registers.drop config.arch.generalCount }

def state (processor : Processor P) : Except ProbeError Snapshot × Processor P :=
  match processor.sampled with
  | some snapshot => (.ok snapshot, processor)
  | none =>
      match readFrom (sampledPath processor.config) 0 (sampleSize processor.config) []
          processor.probe with
      | (.error error, probe) => (.error error, { processor with probe })
      | (.ok values, probe) =>
          let snapshot := snapshotOf processor.config
            (values.map fun value => (processor.orient value).toNat?)
          (.ok snapshot, { processor with probe, sampled := some snapshot })

/-- Lets time pass, after which the snapshot is out of date even if that failed. -/
def pass (processor : Processor P) (units : Nat) : Except ProbeError Unit × Processor P :=
  match Probe.advance processor.probe units with
  | (result, probe) => (result, { processor with probe, sampled := none })

def settle (processor : Processor P) : Except ProbeError Unit × Processor P :=
  processor.pass processor.config.timing.settle

def runCycle (processor : Processor P) : Except ProbeError Unit × Processor P :=
  match processor.pass processor.config.timing.cycle with
  | (.error error, processor) => (.error error, processor)
  | (.ok (), processor) => (.ok (), { processor with cycles := processor.cycles + 1 })

/-- Whether the present cycle issues a valid instruction, by the strobe at a path.
Every cycle does when there is no strobe. The strobe is read as it is, in either
order of its bits. -/
def strobe (path? : Option String) (processor : Processor P) : Except ProbeError Bool × Processor P :=
  match path? with
  | none => (.ok true, processor)
  | some path =>
      match Probe.read processor.probe path with
      | (.error error, probe) => (.error error, { processor with probe })
      | (.ok value, probe) => (.ok (0 < value.driven), { processor with probe })

def reached (processor : Processor P) (limit : Option Nat) : Option Nat :=
  limit.filter fun limit => limit ≤ processor.cycles

/-- Waits for a valid instruction for at most `fuel` cycles. -/
def waitFor (strobePath? : Option String) (limit : Option Nat) :
    Nat → Processor P → Except RunError Unit × Processor P
  | 0, processor => (.error .counterFull, processor)
  | fuel + 1, processor =>
      match processor.strobe strobePath? with
      | (.error error, processor) => (.error (.probe error), processor)
      | (.ok true, processor) => (.ok (), processor)
      | (.ok false, processor) =>
          match processor.reached limit with
          | some limit => (.error (.cycleLimit limit), processor)
          | none =>
              match processor.runCycle with
              | (.error error, processor) => (.error (.probe error), processor)
              | (.ok (), processor) => waitFor strobePath? limit fuel processor

/-- Moves on to the next valid instruction, but not past the cycle `limit`. -/
def waitValid (processor : Processor P) (limit : Option Nat) : Except RunError Unit × Processor P :=
  waitFor processor.config.wiring.strobePath? limit (wordLimit - processor.cycles) processor

/-- Changes interrupt lines: reads them, with undefined ones as low, and drives
all of them. The snapshot is kept. -/
def setIrqs (processor : Processor P) (update : IrqUpdate) : Except ProbeError Unit × Processor P :=
  let path := processor.config.wiring.irq
  match Probe.read processor.probe path with
  | (.error error, probe) => (.error error, { processor with probe })
  | (.ok current, probe) =>
      let next := update.apply (processor.orient current).driven
      let value := processor.orient (Bus.ofNat next processor.config.arch.irqLines)
      match Probe.write probe path value with
      | (result, probe) => (result, { processor with probe })

end Processor

end CoreBench
