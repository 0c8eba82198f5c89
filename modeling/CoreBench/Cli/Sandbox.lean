import CoreBench.Cli.FileTree
import CoreBench.Cli.Host

/-!
A system in memory, for running the program where nothing else can see it: a file
tree, variables, tools that work on the tree, and the two outputs as text. Some places
of the tree are devices, which pass on what is written to them.
-/

namespace CoreBench.Cli

/-- What a tool does with its arguments, in a directory of the tree. -/
abbrev Tool := List String → Place → FileTree → ToolEnd × FileTree

/-- What becomes of a text that is written to a device. -/
inductive Device where
  | sink
  | full
  | output
  | complaints
  deriving DecidableEq, Repr

structure Sandbox where
  tree : FileTree
  directory : Place
  devices : Place → Option Device := fun _ => none
  environment : Environment := fun _ => none
  tools : String → Option Tool := fun _ => none
  printed : String := ""
  complaints : String := ""

namespace Sandbox

def scratch : Place := ["tmp", "scratch"]

def worded {α : Type} (result : Except FileError α) : Except String α :=
  result.mapError FileError.message

def isDirectory (sandbox : Sandbox) (path : String) : Bool :=
  match sandbox.tree.find sandbox.directory path with
  | .ok .directory => true
  | _ => false

/-- Whether a path leads to a file. A device is none. -/
def isFile (sandbox : Sandbox) (path : String) : Bool :=
  match sandbox.tree.resolve sandbox.directory path with
  | .ok place => (sandbox.tree.files.lookup place).isSome && (sandbox.devices place).isNone
  | .error _ => false

def send (content : String) (sandbox : Sandbox) : Device → Except FileError Sandbox
  | .sink => .ok sandbox
  | .full => if content = "" then .ok sandbox else .error .noSpace
  | .output => .ok { sandbox with printed := sandbox.printed ++ content }
  | .complaints => .ok { sandbox with complaints := sandbox.complaints ++ content }

/-- Writes a file, or to the device that the path leads to. -/
def write (path content : String) (sandbox : Sandbox) : Except FileError Sandbox := do
  let place ← sandbox.tree.target sandbox.directory path
  match sandbox.devices place with
  | some device => sandbox.send content device
  | none => return { sandbox with tree := sandbox.tree.put place content.toUTF8 }

/-- Why a tool that is not known cannot be started from a directory. A name with a
slash in it is a path, and nothing in the tree may be run. -/
def refuseTool (sandbox : Sandbox) (tool : String) (place : Place) : FileError :=
  if tool.toList.contains '/' then
    match sandbox.tree.find place tool with
    | .ok _ => .permissionDenied
    | .error error => error
  else if nameLimit < tool.utf8ByteSize then .nameTooLong
  else .notFound

/-- Runs a tool. A directory for it is a path like any other. -/
def run (tool : String) (arguments : List String) (directory : Option String) (sandbox : Sandbox) :
    Except String ToolEnd × Sandbox :=
  match sandbox.tree.resolve sandbox.directory (directory.getD ".") with
  | .error error => (.error error.message, sandbox)
  | .ok place =>
      match sandbox.tools tool with
      | some action =>
          let (result, tree) := action arguments place sandbox.tree
          (.ok result, { sandbox with tree })
      | none => (.error (sandbox.refuseTool tool place).message, sandbox)

end Sandbox

instance : Host (StateM Sandbox) where
  readBytes path := do
    let sandbox ← get
    return Sandbox.worded (sandbox.tree.read sandbox.directory path)
  writeText path content := modifyGet fun sandbox =>
    match sandbox.write path content with
    | .ok sandbox => (.ok (), sandbox)
    | .error error => (.error error.message, sandbox)
  isFile path := return (← get).isFile path
  isDirectory path := return (← get).isDirectory path
  workingDirectory := return .ok (Path.absolute (← get).directory)
  scratchDirectory := do
    modify fun sandbox => {
      sandbox with
      tree := { sandbox.tree with directories := Sandbox.scratch :: sandbox.tree.directories } }
    return .ok (Path.absolute Sandbox.scratch)
  discard path := modify fun sandbox =>
    match sandbox.tree.resolve sandbox.directory path with
    | .ok place => { sandbox with tree := sandbox.tree.remove place }
    | .error _ => sandbox
  lookup name := return (← get).environment name
  runTool tool arguments directory := modifyGet (Sandbox.run tool arguments directory)
  print text := modify fun sandbox => { sandbox with printed := sandbox.printed ++ text }
  complain text := modify fun sandbox => { sandbox with complaints := sandbox.complaints ++ text }

end CoreBench.Cli
