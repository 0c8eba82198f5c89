import CoreBench.Cli.Inputs

/-!
What benches hold, without running them. A bench that cannot be read is complained
about, and the others are still read.
-/

namespace CoreBench.Cli

namespace Overview

def countCommands (bench : Bench) (isWanted : Action → Bool) : Nat :=
  bench.commands.countP fun command => isWanted command.action

def summary (bench : Bench) : String :=
  let comparisons := countCommands bench fun
    | .compare _ => true
    | _ => false
  let interrupts := countCommands bench fun
    | .interrupt _ => true
    | _ => false
  let ends := countCommands bench fun
    | .finish => true
    | _ => false
  s!"{bench.instructions.length} instructions, {comparisons} assertions, {interrupts} irqs, " ++
    s!"{bench.aliases.size} aliases" ++
    (if ends = 0 then " (no end directive)" else "") ++
    (if bench.todos.isEmpty then "" else s!", {bench.todos.length} todos")

def rendered (quiet verbose : Bool) (name : String) (bench : Bench) : String :=
  (if quiet then "" else s!"{name}: {summary bench}\n") ++
    (if verbose then String.join (bench.todos.map fun todo => s!"    {todo}\n") else "")

end Overview

variable {m : Type → Type} [Monad m] [Host m]

def checkBench (invocation : Invocation) (arch : Arch) (sources : Sources) (path : String) : m Bool := do
  match ← (loadBench arch sources path).run with
  | .ok bench =>
      Host.print (Overview.rendered invocation.quiet invocation.verbose (benchName path) bench)
      return true
  | .error reason =>
      Host.complain s!"error: {reason}\n"
      return false

def checkBenches (invocation : Invocation) (benches : List String) (sources : Sources) :
    ExceptT String m Nat := do
  let config ← settings invocation.config
  let results ← ExceptT.lift (benches.mapM (checkBench invocation config.arch sources) : m (List Bool))
  return if results.all id then 0 else 1

end CoreBench.Cli
