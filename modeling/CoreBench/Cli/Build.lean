import CoreBench.Cli.Inputs
import CoreBench.Image

/-!
From a bench to the memory of a core: its assembly, its machine code, and the
template with the code in it.
-/

namespace CoreBench.Cli

variable {m : Type → Type} [Monad m] [Host m]

/-- Fills a template and puts the result where it belongs. -/
def deliverImage (arch : Arch) (template content : String) (code : ByteArray) (output : Option String) :
    ExceptT String m Unit := do
  let filled ← attempt (fun error => s!"{template}: {error.message}")
    (return Image.fill content (Image.render arch code.toList))
  deliver output filled

def writeAssembly (invocation : Invocation) (bench : String) (output : Option String)
    (sources : Sources) : ExceptT String m Nat := do
  let config ← settings invocation.config
  let bench ← loadBench config.arch sources bench
  deliver output bench.assembly
  return 0

def writeImage (invocation : Invocation) (binary template : String) (output : Option String) :
    ExceptT String m Nat := do
  let config ← settings invocation.config
  let code ← fileBytes binary
  let content ← fileText template
  deliverImage config.arch template content code output
  return 0

def generateImage (invocation : Invocation) (bench template : String) (output : Option String)
    (sources : Sources) : ExceptT String m Nat := do
  let config ← settings invocation.config
  let content ← fileText template
  let bench ← loadBench config.arch sources bench
  let code ← attempt ToolError.message (Toolchain.assemble bench.assembly)
  deliverImage config.arch template content code output
  return 0

end CoreBench.Cli
