import CoreBench.Text.Split

/-!
The tokens of a value change dump: runs of other characters than white space,
each with the number of its line.
-/

namespace CoreBench.Waveform

structure Token where
  line : Nat
  text : List Char
  deriving DecidableEq, Repr

namespace Token

/-- The tokens of some lines, the first of which has the given number. -/
def ofLines : Nat → List (List Char) → List Token
  | _, [] => []
  | number, line :: rest => (Text.words line).map (Token.mk number) ++ ofLines (number + 1) rest

def ofText (cs : List Char) : List Token :=
  ofLines 1 (Text.lines cs)

end Token

end CoreBench.Waveform
