import CoreBench.Config.Settings

/-!
Environment variables that replace architecture settings. They are taken one
after another in a fixed order; the first one that cannot be read ends the
replacing, and what was replaced before it stays.
-/

namespace CoreBench

/-- The architecture settings; each of them has a variable. -/
inductive Setting where
  | wordSize
  | generalCount
  | specialCount
  | irqLines
  | stride
  | instrBytes
  | byteOrder
  deriving DecidableEq, Repr

namespace Setting

def all : List Setting :=
  [wordSize, generalCount, specialCount, irqLines, stride, instrBytes, byteOrder]

def variableName : Setting → String
  | wordSize => "ISAG_WORD_SIZE"
  | generalCount => "ISAG_NUM_GPR"
  | specialCount => "ISAG_NUM_SPR"
  | irqLines => "ISAG_NUM_IRQS"
  | stride => "ISAG_STRIDE"
  | instrBytes => "ISAG_INSTR_SIZE"
  | byteOrder => "ISAG_ENDIAN"

/-- The architecture with the setting at the value that the text stands for. -/
def assign? (setting : Setting) (text : String) (arch : Arch) : Option Arch :=
  let cs := Text.trim text.toList
  match setting with
  | wordSize => (Text.unsigned? 32 cs).map fun n => { arch with wordSize := n }
  | generalCount => (Text.unsigned? 64 cs).map fun n => { arch with generalCount := n }
  | specialCount => (Text.unsigned? 64 cs).map fun n => { arch with specialCount := n }
  | irqLines => (Text.unsigned? 32 cs).map fun n => { arch with irqLines := n }
  | stride => (Text.unsigned? 64 cs).map fun n => { arch with stride := n }
  | instrBytes => (Text.unsigned? 64 cs).map fun n => { arch with instrBytes := n }
  | byteOrder =>
      match ByteOrder.ofText text with
      | .ok order => some { arch with byteOrder := order }
      | .error _ => none

end Setting

structure BadSetting where
  setting : Setting
  value : String
  deriving DecidableEq, Repr

def BadSetting.message (error : BadSetting) : String :=
  s!"invalid value '{error.value}' for environment variable {error.setting.variableName}"

abbrev Environment := String → Option String

namespace Arch

/-- Replaces the listed settings where their variables are set. -/
def replaceEach (environment : Environment) : List Setting → Arch → Except BadSetting Unit × Arch
  | [], arch => (.ok (), arch)
  | setting :: rest, arch =>
      match environment setting.variableName with
      | none => replaceEach environment rest arch
      | some value =>
          match setting.assign? value arch with
          | none => (.error ⟨setting, value⟩, arch)
          | some arch => replaceEach environment rest arch

end Arch

namespace Config

/-- Replaces what the environment sets, and tells whether all of it was read. -/
def replaceFrom (environment : Environment) (config : Config) : Except BadSetting Unit × Config :=
  let (result, arch) := config.arch.replaceEach environment Setting.all
  (result, { config with arch })

end Config

end CoreBench
