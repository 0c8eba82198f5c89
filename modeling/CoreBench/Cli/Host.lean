import CoreBench.Config.Environment

/-!
What the program asks of the system it runs on. Commands are written for any such
system; when a request fails, the system says why.
-/

namespace CoreBench.Cli

/-- How a tool has ended, and what it wrote about it. A code of zero is success. -/
structure ToolEnd where
  code : Nat
  complaint : String
  deriving DecidableEq, Repr

/-- A system with files, environment variables, tools and two outputs. -/
class Host (m : Type → Type) where
  readBytes (path : String) : m (Except String ByteArray)
  writeText (path content : String) : m (Except String Unit)
  isFile (path : String) : m Bool
  isDirectory (path : String) : m Bool
  workingDirectory : m (Except String String)
  /-- Makes a directory that nothing else uses. -/
  scratchDirectory : m (Except String String)
  /-- Removes a scratch directory with all that is in it. -/
  discard (directory : String) : m Unit
  lookup (name : String) : m (Option String)
  /-- Runs a tool to its end, in the directory if one is given. -/
  runTool (tool : String) (arguments : List String) (directory : Option String) :
    m (Except String ToolEnd)
  print (text : String) : m Unit
  complain (text : String) : m Unit

namespace Host

variable {m : Type → Type} [Monad m] [Host m]

def readText (path : String) : m (Except String String) := do
  return match ← readBytes path with
    | .error reason => .error reason
    | .ok bytes =>
        match String.fromUTF8? bytes with
        | some text => .ok text
        | none => .error "stream did not contain valid UTF-8"

/-- The variables that settings can come from. -/
def environment : m Environment := do
  let values ← Setting.all.mapM fun setting => do
    return (setting.variableName, ← lookup setting.variableName)
  return fun name => (values.lookup name).join

def firstFile : List String → m (Option String)
  | [] => return none
  | path :: rest => do
      if ← isFile path then return some path
      else firstFile rest

end Host

/-- A request whose failure ends the command, with the reason put into words. -/
def attempt {m : Type → Type} [Monad m] {ε α : Type} (wording : ε → String)
    (request : m (Except ε α)) : ExceptT String m α :=
  ExceptT.mk (return (← request).mapError wording)

end CoreBench.Cli
