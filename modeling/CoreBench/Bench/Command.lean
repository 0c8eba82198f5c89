import CoreBench.Bench.Operand

/-!
What a bench does at run time: compare two operands, drive interrupt lines, or
finish the test. A command belongs to an instruction and fires some cycles after
the core has reached it.
-/

namespace CoreBench

inductive DirectiveError where
  | unknownType (kind : String)
  | malformed (statement : String)
  | delay (text : String)
  | comparison (text : String)
  | operand (text : String) (error : OperandError)
  | interrupt (text : String)
  | interruptMask (mask lines : Nat)
  | definition (error : AliasError)
  | noInstruction (kind : String)
  deriving DecidableEq, Repr

def DirectiveError.message : DirectiveError → String
  | unknownType kind => s!"unknown directive type '{kind}'"
  | malformed statement => s!"malformed directive '{statement}'"
  | delay text => s!"invalid cycle offset '{text}'"
  | comparison text => s!"malformed assertion '{text}'"
  | operand text error => s!"invalid operand in '{text}': {error.message}"
  | interrupt text => s!"malformed irq action '{text}'"
  | interruptMask mask lines => s!"irq mask 0x{Text.hexLower mask} exceeds {lines} interrupt lines"
  | definition error => error.message
  | noInstruction kind => s!"'{kind}' directive before the first instruction"

inductive Relation where
  | equal
  | different
  deriving DecidableEq, Repr

namespace Relation

def holds : Relation → Nat → Nat → Bool
  | equal, a, b => a = b
  | different, a, b => a ≠ b

def toText : Relation → String
  | equal => "=="
  | different => "!="

/-- What stands before and after the first relation of a text. -/
def cut : List Char → Option (List Char × Relation × List Char)
  | '=' :: '=' :: rest => some ([], equal, rest)
  | '!' :: '=' :: rest => some ([], different, rest)
  | c :: rest => (cut rest).map fun parts => (c :: parts.1, parts.2)
  | [] => none

end Relation

structure Comparison where
  left : Operand
  relation : Relation
  right : Operand
  deriving DecidableEq, Repr

namespace Comparison

/-- Reads a comparison, which stands on one line. -/
def parse (arch : Arch) (aliases : AliasTable) (cs : List Char) : Except DirectiveError Comparison :=
  let text := String.ofList cs
  if '\n' ∈ cs then .error (.comparison text)
  else
    match Relation.cut cs with
    | none => .error (.comparison text)
    | some (left, relation, right) =>
        match Operand.parse arch aliases left with
        | .error error => .error (.operand text error)
        | .ok left =>
            match Operand.parse arch aliases right with
            | .error error => .error (.operand text error)
            | .ok right => .ok ⟨left, relation, right⟩

def evaluate (comparison : Comparison) (snapshot : Snapshot) : Except EvalError (Nat × Nat) :=
  match comparison.left.evaluate snapshot with
  | .error error => .error error
  | .ok a =>
      match comparison.right.evaluate snapshot with
      | .error error => .error error
      | .ok b => .ok (a, b)

end Comparison

/-- New values for some of the interrupt lines. -/
structure IrqUpdate where
  mask : Nat
  value : Nat
  deriving DecidableEq, Repr

namespace IrqUpdate

/-- Reads `mask->value`. Only lines that the core has can be masked. -/
def parse (arch : Arch) (cs : List Char) : Except DirectiveError IrqUpdate :=
  match Text.cut ['-', '>'] cs with
  | none => .error (.interrupt (String.ofList cs))
  | some (mask, value) =>
      match Text.numeral? (Text.trim mask), Text.numeral? (Text.trim value) with
      | some mask, some value =>
          if mask &&& arch.irqMask = mask then .ok ⟨mask, value⟩
          else .error (.interruptMask mask arch.irqLines)
      | _, _ => .error (.interrupt (String.ofList cs))

/-- The lines outside the mask stay, those inside take the value. -/
def apply (update : IrqUpdate) (current : Nat) : Nat :=
  (current ^^^ (current &&& update.mask)) ||| (update.mask &&& update.value)

end IrqUpdate

inductive Action where
  | compare (comparison : Comparison)
  | interrupt (update : IrqUpdate)
  | finish
  deriving DecidableEq, Repr

/-- An action at an instruction, `delay` cycles after it was reached, with the
text and the line of its directive. -/
structure Command where
  action : Action
  address : Nat
  delay : Nat
  parameters : String
  line : Nat
  deriving DecidableEq, Repr

inductive Outcome where
  | passed
  | failed (message : String)
  | interrupt (update : IrqUpdate)
  | finished
  deriving DecidableEq, Repr

namespace Command

/-- Where a failed comparison stands: the byte address, which wraps at 64 bits,
the delay and the text. -/
def location (command : Command) (arch : Arch) : String :=
  let address := Text.hexUpper arch.hexDigits (command.address * arch.stride % wordLimit)
  s!"Assertion failed 0x{address}@{command.delay}, '{command.parameters}'"

/-- A comparison passes when both values are known and the relation holds. -/
def check (command : Command) (comparison : Comparison) (snapshot : Snapshot) (arch : Arch) : Outcome :=
  match comparison.evaluate snapshot with
  | .error error => .failed s!"{command.location arch} <> {error.message}"
  | .ok (a, b) =>
      if comparison.relation.holds a b then .passed
      else
        let left := Text.hexUpper arch.hexDigits a
        let right := Text.hexUpper arch.hexDigits b
        .failed s!"{command.location arch} <> '{left} {comparison.relation.toText} {right}'"

def execute (command : Command) (snapshot : Snapshot) (arch : Arch) : Outcome :=
  match command.action with
  | .finish => .finished
  | .interrupt update => .interrupt update
  | .compare comparison => command.check comparison snapshot arch

end Command

end CoreBench
