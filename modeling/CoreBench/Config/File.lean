import CoreBench.Config.Settings
import CoreBench.Toml.Document

/-!
The settings file. Every section and every field may be missing and then keeps
its default, unknown names are passed over, and a field of another type is
refused. A section may also be an array that lists its fields in order.
-/

namespace CoreBench

open Toml (Item Entries)

inductive Section where
  | named (entries : Entries)
  | listed (items : List Item)

namespace Section

def ofItem? : Item → Option Section
  | .table _ entries => some (.named entries)
  | .inline entries => some (.named entries)
  | .array items => some (.listed items)
  | .tables elements => some (.listed (elements.map (.table .header)))
  | .moment _ => some (.named [])
  | _ => none

/-- A field, or its default when the section does not have it. -/
def field {α : Type} (fields : Section) (position : Nat) (name : String) (default : α)
    (read? : Item → Option α) : Option α :=
  let item? := match fields with
    | named entries => Table.get? entries name
    | listed items => items[position]?
  match item? with
  | none => some default
  | some item => read? item

end Section

namespace Toml.Item

def natural? (bits : Nat) : Item → Option Nat
  | .integer (.ofNat n) => if n < 1 <<< bits then some n else none
  | _ => none

def text? : Item → Option String
  | .text content => some content
  | _ => none

def boolean? : Item → Option Bool
  | .boolean value => some value
  | _ => none

def isBare : Item → Bool
  | .array items => items.isEmpty
  | .inline entries => entries.isEmpty
  | .table _ entries => entries.isEmpty
  | .tables elements => elements.isEmpty
  | _ => false

def byteOrderNamed? (name : String) : Option ByteOrder :=
  if name = "big" then some .big else if name = "little" then some .little else none

/-- A byte order is a text, or a table whose only key is that text and has
nothing below it. -/
def byteOrder? : Item → Option ByteOrder
  | .text name => byteOrderNamed? name
  | .inline [(name, item)] => if item.isBare then byteOrderNamed? name else none
  | .table _ [(name, item)] => if item.isBare then byteOrderNamed? name else none
  | _ => none

end Toml.Item

namespace Arch

def ofSection? (fields : Section) : Option Arch := do
  let default : Arch := {}
  let wordSize ← fields.field 0 "word_size" default.wordSize (Item.natural? 32)
  let generalCount ← fields.field 1 "gp_registers" default.generalCount (Item.natural? 64)
  let specialCount ← fields.field 2 "sp_registers" default.specialCount (Item.natural? 64)
  let irqLines ← fields.field 3 "irq_lines" default.irqLines (Item.natural? 32)
  let instrBytes ← fields.field 4 "instr_size_bytes" default.instrBytes (Item.natural? 64)
  let stride ← fields.field 5 "stride" default.stride (Item.natural? 64)
  let byteOrder ← fields.field 6 "endianness" default.byteOrder Item.byteOrder?
  some { wordSize, generalCount, specialCount, irqLines, instrBytes, stride, byteOrder }

end Arch

namespace Wiring

def ofSection? (fields : Section) : Option Wiring := do
  let default : Wiring := {}
  let pc ← fields.field 0 "pc" default.pc Item.text?
  let general ← fields.field 1 "gp_register" default.general Item.text?
  let special ← fields.field 2 "sp_register" default.special Item.text?
  let irq ← fields.field 3 "irq" default.irq Item.text?
  let strobe ← fields.field 4 "instr_valid" default.strobe fun item => item.text?.map some
  let reversed ← fields.field 5 "flip" default.reversed Item.boolean?
  some { pc, general, special, irq, strobe, reversed }

end Wiring

namespace Timing

def ofSection? (fields : Section) : Option Timing := do
  let default : Timing := {}
  let cycle ← fields.field 0 "cycle_time" default.cycle (Item.natural? 64)
  let settle ← fields.field 1 "settle_time" default.settle (Item.natural? 64)
  let unit ← fields.field 2 "time_unit" default.unit Item.text?
  let maxCycles ← fields.field 3 "max_cycles" default.maxCycles fun item => (item.natural? 64).map some
  some { cycle, settle, unit, maxCycles }

end Timing

namespace Config

def ofEntries? (entries : Entries) : Option Config := do
  let document := Section.named entries
  let arch ← document.field 0 "arch" {} fun item => Section.ofItem? item >>= Arch.ofSection?
  let wiring ← document.field 1 "signals" {} fun item => Section.ofItem? item >>= Wiring.ofSection?
  let timing ← document.field 2 "run" {} fun item => Section.ofItem? item >>= Timing.ofSection?
  some { arch, wiring, timing }

inductive FileError where
  | notToml
  | wrongType
  deriving DecidableEq, Repr

def FileError.message : FileError → String
  | notToml => "not a TOML document"
  | wrongType => "a setting has the wrong type"

def ofFile (content : String) : Except FileError Config :=
  match Entries.ofText? content with
  | none => .error .notToml
  | some entries =>
      match ofEntries? entries with
      | none => .error .wrongType
      | some config => .ok config

end Config

end CoreBench
