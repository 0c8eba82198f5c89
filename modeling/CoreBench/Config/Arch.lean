import CoreBench.Text.Split
import CoreBench.Text.Numeral
import CoreBench.Word

/-!
The architecture of the core under test: the width of a register, how many
registers and interrupt lines there are, and how instructions lie in memory.
-/

namespace CoreBench

/-- The order of the bytes of an instruction in the assembled image. -/
inductive ByteOrder where
  | big
  | little
  deriving DecidableEq, Repr

structure UnknownByteOrder where
  text : String
  deriving DecidableEq, Repr

namespace UnknownByteOrder

def message (error : UnknownByteOrder) : String :=
  s!"unknown endianness '{error.text}'"

end UnknownByteOrder

namespace ByteOrder

def name : ByteOrder → String
  | big => "big"
  | little => "little"

/-- Reads a byte order by name, by its short name or as an answer to "is it big
endian?". -/
def ofText (text : String) : Except UnknownByteOrder ByteOrder :=
  let word := String.ofList (Text.lower (Text.trim text.toList))
  if word ∈ ["big", "be", "1", "true"] then .ok big
  else if word ∈ ["little", "le", "0", "false"] then .ok little
  else .error ⟨word⟩

end ByteOrder

inductive RegisterFile where
  | general
  | special
  deriving DecidableEq, Repr

/-- The letter that register names of the file start with. -/
def RegisterFile.letter : RegisterFile → Char
  | general => 'r'
  | special => 's'

structure Arch where
  wordSize : Nat := 32
  generalCount : Nat := 16
  specialCount : Nat := 4
  irqLines : Nat := 4
  instrBytes : Nat := 4
  stride : Nat := 4
  byteOrder : ByteOrder := .big
  deriving DecidableEq, Repr, Inhabited

namespace Arch

def count (arch : Arch) : RegisterFile → Nat
  | .general => arch.generalCount
  | .special => arch.specialCount

def hexDigits (arch : Arch) : Nat :=
  (arch.wordSize + 3) / 4

def irqMask (arch : Arch) : Nat :=
  lowMask arch.irqLines

end Arch

end CoreBench
