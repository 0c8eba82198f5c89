import CoreBench.Bench.Command

/-!
What a run of a bench has come to: how many comparisons held, the messages of
those that did not, and whether the end was reached.
-/

namespace CoreBench

structure Tally where
  /-- A number without bound. A machine that counts in a word stops at `2 ^ 64`. -/
  passed : Nat := 0
  failures : List String := []
  complete : Bool := false
  deriving DecidableEq, Repr

namespace Tally

/-- Adds the outcome of one command. Interrupts leave no trace here. -/
def record (tally : Tally) : Outcome → Tally
  | .passed => { tally with passed := tally.passed + 1 }
  | .failed message => { tally with failures := tally.failures ++ [message] }
  | .finished => { tally with complete := true }
  | .interrupt _ => tally

def failed (tally : Tally) : Nat :=
  tally.failures.length

end Tally

end CoreBench
