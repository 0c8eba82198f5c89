import CoreBench.Bench.Source
import CoreBench.Cli.Invocation
import CoreBench.Cli.Toolchain
import CoreBench.Config.Load

/-!
What commands work on: the settings, the benches and other files, each with the
words for what is wrong with it, and the place for the result.
-/

namespace CoreBench.Cli

def settingsFile : String := "isag.toml"

variable {m : Type → Type} [Monad m] [Host m]

/-- Where the settings are: in the file or directory that is named, or else in the
nearest settings file at or above the working directory. -/
def settingsPath? : Option String → ExceptT String m (Option String)
  | some path => ExceptT.lift do
      if ← (Host.isDirectory path : m Bool) then return some (Path.child path settingsFile)
      else return some path
  | none => do
      let directory ← attempt id (Host.workingDirectory : m (Except String String))
      ExceptT.lift <| Host.firstFile <|
        (Path.upward directory).map fun outer => Path.child outer settingsFile

/-- The settings, which come from the environment alone when there is no file. -/
def settings (named : Option String) : ExceptT String m Config := do
  match ← settingsPath? named with
  | none => attempt ConfigError.message (return Config.loadDefault (← Host.environment))
  | some path =>
      attempt (fun error => s!"{path}: {error.message}")
        (return Config.load (← Host.environment) (← Host.readText path))

def fileText (path : String) : ExceptT String m String :=
  attempt (fun reason => s!"cannot read {path}: {reason}") (Host.readText path)

def fileBytes (path : String) : ExceptT String m ByteArray :=
  attempt (fun reason => s!"cannot read {path}: {reason}") (Host.readBytes path)

def benchText (sources : Sources) (path : String) : ExceptT String m String :=
  if sources.preprocess then
    attempt ToolError.message (Toolchain.preprocess path sources.includes)
  else fileText path

def loadBench (arch : Arch) (sources : Sources) (path : String) : ExceptT String m Bench := do
  let text ← benchText sources path
  attempt (fun error => s!"{path}: {error.message}") (return Bench.parse arch text)

def benchName (path : String) : String :=
  (Path.fileName? path).getD path

/-- Puts the result into a file, or on the output if there is none. -/
def deliver (output : Option String) (content : String) : ExceptT String m Unit :=
  match output with
  | some path => attempt (fun reason => s!"cannot write {path}: {reason}") (Host.writeText path content)
  | none => ExceptT.lift (Host.print content)

end CoreBench.Cli
