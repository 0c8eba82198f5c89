import CoreBench.Cli.FileTree
import CoreBench.Cli.Program

/-!
The program on the system at hand. There is no way to start other programs from
here, so benches that need an external tool end with the system's answer to that.
-/

namespace CoreBench.Cli

/-- The same error may come with a code or with its negation. -/
def isCode (code expected : UInt32) : Bool :=
  code = expected || code = 0 - expected

def systemWords : IO.Error → String
  | .noFileOrDirectory _ _ _ => FileError.notFound.message
  | .inappropriateType _ code _ =>
      if isCode code 21 then FileError.isADirectory.message else FileError.notADirectory.message
  | .permissionDenied _ _ _ => FileError.permissionDenied.message
  | .invalidArgument name code details =>
      if isCode code 36 then FileError.nameTooLong.message
      else (IO.Error.invalidArgument name code details).toString
  | error => error.toString

def inWords {α : Type} (request : IO α) : BaseIO (Except String α) := do
  return (← request.toBaseIO).mapError systemWords

/-- Whether reading failed because the path leads to a directory. -/
def refusesDirectory : IO.Error → Bool
  | .inappropriateType _ code _ => isCode code 21
  | _ => false

instance : Host BaseIO where
  readBytes path := inWords (IO.FS.readBinFile path)
  writeText path content := inWords (IO.FS.writeFile path content)
  isFile path := return (← (IO.FS.readBinFile path).toBaseIO).isOk
  isDirectory path := return match ← (IO.FS.readBinFile path).toBaseIO with
    | .ok _ => false
    | .error error => refusesDirectory error
  workingDirectory := inWords (return (← IO.currentDir).toString)
  scratchDirectory := inWords (return (← IO.FS.createTempDir).toString)
  discard directory := do
    let _ ← (IO.FS.removeDirAll directory).toBaseIO
  lookup name := IO.getEnv name
  runTool _ _ _ := return .error "Operation not supported (os error 95)"
  print text := do
    let _ ← (IO.print text).toBaseIO
  complain text := do
    let _ ← (IO.eprint text).toBaseIO

end CoreBench.Cli

def main (arguments : List String) : IO UInt32 := do
  let code ← (CoreBench.Cli.program arguments : BaseIO Nat)
  return UInt32.ofNat code
