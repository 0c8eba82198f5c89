/-!
Words of up to 64 bits. Times, cycles, addresses and register values are numbers
below the limit; where one would reach it, the reader or the counter says so.
-/

namespace CoreBench

/-- The first number that 64 bits cannot hold. -/
def wordLimit : Nat := 0x10000000000000000

/-- The number with the low `bits` bits set, of at most 64. -/
def lowMask (bits : Nat) : Nat :=
  1 <<< min bits 64 - 1

theorem wordLimit_eq : wordLimit = 1 <<< 64 := by
  decide

end CoreBench
