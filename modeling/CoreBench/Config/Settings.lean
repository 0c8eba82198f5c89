import CoreBench.Config.Wiring

/-!
All settings of a run, and the check that they can be used. The check reports the
first issue in a fixed order.
-/

namespace CoreBench

/-- How long a clock cycle takes and how many of them a test may use. Times are
in simulator time units; `unit` is the length of one of those. -/
structure Timing where
  cycle : Nat := 10
  settle : Nat := 1
  unit : String := "1ns"
  maxCycles : Option Nat := none
  deriving DecidableEq, Repr, Inhabited

structure Config where
  arch : Arch := {}
  wiring : Wiring := {}
  timing : Timing := {}
  deriving DecidableEq, Repr, Inhabited

inductive Issue where
  | wordSize (got : Nat)
  | stride
  | instrBytes
  | irqLines (got : Nat)
  | cycle
  | pcPath
  deriving DecidableEq, Repr

def Issue.message : Issue → String
  | wordSize got => s!"arch.word_size must be between 1 and 64, got {got}"
  | stride => "arch.stride must be at least 1"
  | instrBytes => "arch.instr_size_bytes must be at least 1"
  | irqLines got => s!"arch.irq_lines must be at most 64, got {got}"
  | cycle => "run.cycle_time must be at least 1"
  | pcPath => "signals.pc must not be empty"

namespace Config

def issue? (config : Config) : Option Issue :=
  if config.arch.wordSize = 0 ∨ 64 < config.arch.wordSize then some (.wordSize config.arch.wordSize)
  else if config.arch.stride = 0 then some .stride
  else if config.arch.instrBytes = 0 then some .instrBytes
  else if 64 < config.arch.irqLines then some (.irqLines config.arch.irqLines)
  else if config.timing.cycle = 0 then some .cycle
  else if config.wiring.pc = "" then some .pcPath
  else none

/-- What every loaded configuration satisfies. -/
structure Usable (config : Config) : Prop where
  wordSize_pos : 1 ≤ config.arch.wordSize
  wordSize_le : config.arch.wordSize ≤ 64
  stride_pos : 1 ≤ config.arch.stride
  instrBytes_pos : 1 ≤ config.arch.instrBytes
  irqLines_le : config.arch.irqLines ≤ 64
  cycle_pos : 1 ≤ config.timing.cycle
  pc_nonempty : config.wiring.pc ≠ ""

theorem issue?_eq_none_iff (config : Config) : config.issue? = none ↔ config.Usable := by
  constructor
  · intro none
    unfold issue? at none
    split at none <;> try contradiction
    split at none <;> try contradiction
    split at none <;> try contradiction
    split at none <;> try contradiction
    split at none <;> try contradiction
    split at none <;> try contradiction
    constructor <;> first | assumption | omega
  · rintro ⟨low, high, stride, bytes, lines, cycle, pc⟩
    unfold issue?
    repeat rw [if_neg (by first | assumption | omega)]

end Config

end CoreBench
