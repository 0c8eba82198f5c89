import CoreBench.Config.Arch

/-!
Where the signals of the core are found in the simulation. The path of a register
is a template: `index` in braces stands for the number of the register and `msb`
in braces for the number of its highest bit.
-/

namespace CoreBench

structure Wiring where
  pc : String := "UUT/pcs(1)"
  general : String := "UUT/gprf/ISO_REG_FILE_INST/ram(\x7bindex\x7d)(\x7bmsb\x7d:0)"
  special : String := "UUT/state_1.rs(\x7bindex\x7d)(\x7bmsb\x7d:0)"
  irq : String := "irq"
  strobe : Option String := some "UUT/instr_valid(1)"
  reversed : Bool := true
  deriving DecidableEq, Repr, Inhabited

namespace Wiring

def indexField : List Char := "\x7bindex\x7d".toList

def msbField : List Char := "\x7bmsb\x7d".toList

def template (wiring : Wiring) : RegisterFile → String
  | .general => wiring.general
  | .special => wiring.special

/-- The template with its fields filled in, the register number first. -/
def expand (template : String) (index wordSize : Nat) : String :=
  let numbered := Text.replace indexField (Nat.toDigits 10 index) template.toList
  String.ofList (Text.replace msbField (Nat.toDigits 10 (wordSize - 1)) numbered)

def registerPath (wiring : Wiring) (file : RegisterFile) (index wordSize : Nat) : String :=
  expand (wiring.template file) index wordSize

/-- The path of the signal that is high when an instruction is valid. A blank
path means that there is none. -/
def strobePath? (wiring : Wiring) : Option String :=
  wiring.strobe.filter fun path => !path.toList.all Text.isBlank

end Wiring

end CoreBench
