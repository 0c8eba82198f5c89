import CoreBench.Bench.Alias
import CoreBench.Config.Arch

/-!
Operands of comparisons: bits of a register, the program counter, or a constant.
Everything that depends on the architecture is checked when an operand is read, so
that evaluating it can only fail on values the simulation left undefined.
-/

namespace CoreBench

inductive OperandError where
  | unknown (token written : String)
  | register (name : String) (count : Nat)
  | bit (position wordSize : Nat)
  | reversed (first last : Nat)
  | number (text : String)
  deriving DecidableEq, Repr

def OperandError.message : OperandError → String
  | unknown token written => s!"unknown operand '{token}' (from '{written}')"
  | register name count => s!"register {name} out of range, {count} available"
  | bit position wordSize => s!"bit {position} out of range for {wordSize}-bit registers"
  | reversed first last => s!"reversed bit range [{first}:{last}]"
  | number text => s!"invalid number '{text}'"

/-- The bits `hi` down to `lo` of one register. -/
structure Slice where
  index : Nat
  hi : Nat
  lo : Nat
  deriving DecidableEq, Repr

def Slice.extract (slice : Slice) (value : Nat) : Nat :=
  (value >>> slice.lo) &&& lowMask (slice.hi - slice.lo + 1)

inductive Operand where
  | constant (value : Nat)
  | programCounter
  | register (file : RegisterFile) (slice : Slice)
  deriving DecidableEq, Repr

/-- What a core shows in one cycle. Values with undefined bits are missing. -/
structure Snapshot where
  pc : Option Nat := none
  general : List (Option Nat) := []
  special : List (Option Nat) := []
  deriving DecidableEq, Repr

namespace Snapshot

def registers (snapshot : Snapshot) : RegisterFile → List (Option Nat)
  | .general => snapshot.general
  | .special => snapshot.special

/-- The number of the instruction at the program counter. -/
def address? (snapshot : Snapshot) (stride : Nat) : Option Nat :=
  snapshot.pc.map fun pc => pc / max stride 1

end Snapshot

inductive EvalError where
  | unknown (operand : String)
  | missing (operand : String)
  deriving DecidableEq, Repr

def EvalError.message : EvalError → String
  | unknown operand => s!"value of {operand} is unknown"
  | missing operand => s!"{operand} is not part of the sampled state"

namespace Operand

def toText : Operand → String
  | constant value => s!"0x{Text.hexLower value}"
  | programCounter => "pc"
  | register file slice => s!"{file.letter}{slice.index}[{slice.hi}:{slice.lo}]"

def evaluate (operand : Operand) (snapshot : Snapshot) : Except EvalError Nat :=
  match operand with
  | constant value => .ok value
  | programCounter =>
      match snapshot.pc with
      | some pc => .ok pc
      | none => .error (.unknown operand.toText)
  | register file slice =>
      match (snapshot.registers file)[slice.index]? with
      | some (some value) => .ok (slice.extract value)
      | some none => .error (.unknown operand.toText)
      | none => .error (.missing operand.toText)

/-- The register that a base names: a letter in either case and digits. -/
def registerName? : List Char → Option (RegisterFile × List Char)
  | letter :: digits =>
      if digits.isEmpty || !digits.all Text.isDecimalDigit then none
      else if letter = 'r' ∨ letter = 'R' then some (.general, digits)
      else if letter = 's' ∨ letter = 'S' then some (.special, digits)
      else none
  | [] => none

def bit (arch : Arch) (text : String) : Except OperandError Nat :=
  match Text.within 32 (Text.decimal? (Text.trim text.toList)) with
  | none => .error (.number text)
  | some bit => if bit < arch.wordSize then .ok bit else .error (.bit bit arch.wordSize)

/-- The highest and the lowest bit of a range: all bits when nothing is written,
and one bit when one endpoint is. -/
def bounds (arch : Arch) : Option String → Option String → Except OperandError (Nat × Nat)
  | none, none => if arch.wordSize = 0 then .error (.bit 0 0) else .ok (arch.wordSize - 1, 0)
  | some first, none => (bit arch first).map fun bit => (bit, bit)
  | none, some last => (bit arch last).map fun bit => (bit, bit)
  | some first, some last =>
      match bit arch first with
      | .error error => .error error
      | .ok hi =>
          match bit arch last with
          | .error error => .error error
          | .ok lo => .ok (hi, lo)

/-- The slice of the named register that a reference selects. -/
def ofRegister (arch : Arch) (reference : Reference) (file : RegisterFile) (digits : List Char) :
    Except OperandError Operand :=
  match Text.within 64 (Text.decimal? digits) with
  | none => .error (.number (String.ofList digits))
  | some index =>
      if arch.count file ≤ index then .error (.register reference.base (arch.count file))
      else
        match bounds arch reference.first reference.last with
        | .error error => .error error
        | .ok (hi, lo) =>
            if hi < lo then .error (.reversed hi lo) else .ok (.register file ⟨index, hi, lo⟩)

/-- A base that is written as a number: `0x`, or digits alone. -/
def isNumeral (base : List Char) : Bool :=
  (Text.hexPart? base).isSome || (!base.isEmpty && base.all Char.isDigit)

/-- The operand that a reference stands for; `written` is what was written. Only
registers have ranges. Whatever starts with `pc` is the program counter. -/
def ofReference (arch : Arch) (reference : Reference) (written : String) : Except OperandError Operand :=
  let base := reference.base.toList
  match registerName? base with
  | some (file, digits) => ofRegister arch reference file digits
  | none =>
      if reference.first.isSome || reference.last.isSome then
        .error (.unknown reference.toText written)
      else if isNumeral base then
        match Text.numeral? base with
        | some value => .ok (.constant value)
        | none => .error (.number reference.base)
      else if Text.lower (base.take 2) = ['p', 'c'] then .ok .programCounter
      else .error (.unknown reference.toText written)

/-- Reads an operand as it is written in a directive. -/
def parse (arch : Arch) (aliases : AliasTable) (cs : List Char) : Except OperandError Operand :=
  ofReference arch (aliases.resolve cs) (String.ofList (Text.trim cs))

end Operand

end CoreBench
