import CoreBench.Cli.Host
import CoreBench.Text.Path

/-!
The external tools that preprocess and assemble benches. Their names begin with
what `CROSS_COMPILE` says. They work on files in a scratch directory that does not
outlast the call.
-/

namespace CoreBench.Cli

inductive ToolError where
  | unstarted (tool reason : String)
  | failed (tool : String) (result : ToolEnd)
  | files (reason : String)
  deriving DecidableEq, Repr

def ToolError.message : ToolError → String
  | unstarted tool reason => s!"failed to run {tool}: {reason}"
  | failed tool result => s!"{tool} exited with exit status: {result.code}:\n{result.complaint}"
  | files reason => s!"I/O error: {reason}"

namespace Toolchain

variable {m : Type → Type} [Monad m] [Host m]

def invoke (name : String) (arguments : List String) (directory : Option String) :
    ExceptT ToolError m Unit := do
  let start ← ExceptT.lift (Host.lookup "CROSS_COMPILE" : m (Option String))
  let tool := start.getD "" ++ name
  match ← ExceptT.lift (Host.runTool tool arguments directory : m (Except String ToolEnd)) with
  | .error reason => throw (.unstarted tool reason)
  | .ok result => if result.code = 0 then return () else throw (.failed tool result)

def onFiles {α : Type} (request : m (Except String α)) : ExceptT ToolError m α :=
  ExceptT.mk (return (← request).mapError ToolError.files)

/-- Works in a scratch directory and removes it, whatever comes of the work. -/
def inScratch {α : Type} (work : String → ExceptT ToolError m α) : ExceptT ToolError m α := do
  let directory ← onFiles (Host.scratchDirectory : m (Except String String))
  ExceptT.mk do
    let result ← (work directory).run
    Host.discard directory
    return result

/-- What the preprocessor is told. Comments stay, because directives may look like
them. -/
def preprocessArguments (input : String) (includes : List String) (output : String) : List String :=
  ["-E", "-P", "-CC", "-w"] ++ includes.map ("-I" ++ ·) ++
    ["-x", "assembler-with-cpp", input, "-o", output]

def assembleArguments (source : String) : List String :=
  ["-x", "assembler-with-cpp", source, "-nostartfiles", "-nodefaultlibs"]

def preprocess (input : String) (includes : List String) : m (Except ToolError String) :=
  ExceptT.run <| inScratch fun directory => do
    let output := Path.child directory "preprocessed.S"
    invoke "gcc" (preprocessArguments input includes output) none
    onFiles (Host.readText output)

def assemble (assembly : String) : m (Except ToolError ByteArray) :=
  ExceptT.run <| inScratch fun directory => do
    let source := Path.child directory "program.S"
    onFiles (Host.writeText source assembly)
    invoke "gcc" (assembleArguments source) (some directory)
    invoke "objcopy" ["-O", "binary", "a.out", "a.bin"] (some directory)
    onFiles (Host.readBytes (Path.child directory "a.bin"))

end Toolchain

end CoreBench.Cli
