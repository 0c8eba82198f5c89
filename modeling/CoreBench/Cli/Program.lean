import CoreBench.Cli.Build
import CoreBench.Cli.Overview
import CoreBench.Cli.Verdict

/-!
The program: it reads its arguments, does the job, and ends with an exit code. The
code is 0 for success, 1 for a failure of the job, and 2 for arguments that make no
sense.
-/

namespace CoreBench.Cli

def programName : String := "isag"

def version : String := "0.1.0"

def usage : String :=
  s!"Usage: {programName} [-q] [-v] [--config PATH] COMMAND ...\n\n" ++
  "  check BENCH...                 read benches and tell what they hold\n" ++
  "  asm BENCH                      print the instructions of a bench\n" ++
  "  image --bin FILE --template FILE\n" ++
  "                                 fill a template with machine code\n" ++
  "  generate BENCH --template FILE fill a template with an assembled bench\n" ++
  "  run BENCH... --trace FILE      run benches against a recorded trace\n\n" ++
  "Benches:  -I, --include DIR      directory for the preprocessor\n" ++
  "          --preprocess           preprocess benches before reading them\n" ++
  "Results:  -o, --output FILE      for asm, image and generate\n" ++
  "          -f, --format FORMAT    text or json, for run\n" ++
  "          --max-cycles N         give up on a bench after N cycles, for run\n"

variable {m : Type → Type} [Monad m] [Host m]

def perform (invocation : Invocation) : ExceptT String m Nat :=
  match invocation.job with
  | .check benches sources => checkBenches invocation benches sources
  | .assembly bench output sources => writeAssembly invocation bench output sources
  | .image binary template output => writeImage invocation binary template output
  | .generate bench template output sources => generateImage invocation bench template output sources
  | .run benches trace limit format sources => runBenches invocation benches trace limit format sources

def conclude (invocation : Invocation) : m Nat := do
  match ← (perform invocation).run with
  | .ok code => return code
  | .error reason =>
      Host.complain s!"error: {reason}\n"
      return 1

def program (arguments : List String) : m Nat :=
  match Invocation.ofArguments arguments with
  | .ok invocation => conclude invocation
  | .error .wrong => do
      Host.complain usage
      return 2
  | .error (.inform .help) => do
      Host.print usage
      return 0
  | .error (.inform .version) => do
      Host.print s!"{programName} {version}\n"
      return 0

end CoreBench.Cli
