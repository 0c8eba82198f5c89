import CoreBench.Bus
import CoreBench.Word

/-!
The boundary to a simulator. A probe reads a signal, drives a signal and advances
the simulated time; each request may fail and may change the probe, also when it
fails.
-/

namespace CoreBench

inductive ProbeError where
  | unknownSignal (path : String)
  | endOfTrace (last requested : Nat)
  | backend (reason : String)
  | io (reason : String)
  deriving DecidableEq, Repr

def ProbeError.message : ProbeError → String
  | unknownSignal path => s!"unknown signal '{path}'"
  | endOfTrace last requested => s!"trace ended at {last} time units, cannot advance to {requested}"
  | backend reason => s!"simulator error: {reason}"
  | io reason => s!"simulator I/O error: {reason}"

class Probe (P : Type) where
  /-- The value of the signal at a path. -/
  read : P → String → Except ProbeError Bus × P
  /-- Drives the signal at a path. -/
  write : P → String → Bus → Except ProbeError Unit × P
  /-- Lets a number of time units pass. -/
  advance : P → Nat → Except ProbeError Unit × P
  /-- The simulated time. -/
  now : P → Nat

end CoreBench
