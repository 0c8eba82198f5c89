import CoreBench.Cli.Arguments
import CoreBench.Text.Numeral

/-!
The command line of the program: options for every command, the command, and its
own arguments. The common options may stand on either side of the command.
-/

namespace CoreBench.Cli

structure Sources where
  includes : List String := []
  preprocess : Bool := false
  deriving DecidableEq, Repr

/-- What reports are written for: people or programs. -/
inductive Format where
  | text
  | json
  deriving DecidableEq, Repr

namespace Format

def ofName? : String → Option Format
  | "text" => some text
  | "json" => some json
  | _ => none

end Format

inductive Job where
  | check (benches : List String) (sources : Sources)
  | assembly (bench : String) (output : Option String) (sources : Sources)
  | image (binary template : String) (output : Option String)
  | generate (bench template : String) (output : Option String) (sources : Sources)
  | run (benches : List String) (trace : String) (limit : Option Nat) (format : Format)
      (sources : Sources)
  deriving DecidableEq, Repr

structure Invocation where
  quiet : Bool := false
  verbose : Bool := false
  config : Option String := none
  job : Job
  deriving DecidableEq, Repr

inductive Verb where
  | check
  | assembly
  | image
  | generate
  | run
  deriving DecidableEq, Repr

namespace Verb

def ofName? : String → Option Verb
  | "check" => some check
  | "asm" => some assembly
  | "image" => some image
  | "generate" => some generate
  | "run" => some run
  | _ => none

end Verb

def cycles? (text : String) : Option Nat :=
  Text.unsigned? 64 text.toList

namespace Grammar

def help : OptionRule := { name := "help", letter := 'h', kind := .inform .help }

def common : List OptionRule :=
  [{ name := "quiet", letter := 'q', kind := .flag },
   { name := "verbose", letter := 'v', kind := .flag },
   { name := "config", kind := .single },
   help]

def sources : List OptionRule :=
  [{ name := "include", letter := 'I', kind := .repeatable },
   { name := "preprocess", kind := .flag }]

def output : OptionRule := { name := "output", letter := 'o', kind := .single }

def template : OptionRule := { name := "template", kind := .single }

/-- What may stand before the command. -/
def program : Grammar where
  rules := { name := "version", letter := 'V', kind := .inform .version } :: common
  maxWords := some 0

/-- What may stand after the command. -/
def ofVerb : Verb → Grammar
  | .check => { rules := common ++ sources }
  | .assembly => { rules := output :: common ++ sources, maxWords := some 1 }
  | .image => {
      rules := { name := "bin", kind := .single } :: template :: output :: common
      maxWords := some 0 }
  | .generate => { rules := template :: output :: common ++ sources, maxWords := some 1 }
  | .run => {
      rules :=
        { name := "trace", kind := .single } ::
        { name := "max-cycles", kind := .single, accepts := fun text => (cycles? text).isSome } ::
        { name := "format", letter := 'f', kind := .single
          accepts := fun text => (Format.ofName? text).isSome } ::
        common ++ sources }

end Grammar

namespace Given

def sources (given : Given) : Sources :=
  { includes := given.valuesOf "include", preprocess := given.hasFlag "preprocess" }

/-- The job of a command, if nothing that it needs is missing. -/
def job? (given : Given) : Verb → Option Job
  | .check => if given.words.isEmpty then none else some (.check given.words given.sources)
  | .assembly => do
      let bench ← given.words.head?
      some (.assembly bench (given.value? "output") given.sources)
  | .image => do
      let binary ← given.value? "bin"
      let template ← given.value? "template"
      some (.image binary template (given.value? "output"))
  | .generate => do
      let bench ← given.words.head?
      let template ← given.value? "template"
      some (.generate bench template (given.value? "output") given.sources)
  | .run => do
      let trace ← given.value? "trace"
      if given.words.isEmpty then none
      else
        let format := (given.value? "format" >>= Format.ofName?).getD .text
        some (.run given.words trace (given.value? "max-cycles" >>= cycles?) format given.sources)

end Given

namespace Invocation

/-- What stands before and after the command, put together. A setting after the
command takes precedence. -/
def ofGiven (outer inner : Given) (job : Job) : Invocation where
  quiet := outer.hasFlag "quiet" || inner.hasFlag "quiet"
  verbose := outer.hasFlag "verbose" || inner.hasFlag "verbose"
  config := inner.value? "config" <|> outer.value? "config"
  job

def ofCommand (outer : Given) (verb : Verb) (arguments : List String) : Except Stop Invocation := do
  let inner ← (Grammar.ofVerb verb).read arguments
  match inner.job? verb with
  | some job => .ok (ofGiven outer inner job)
  | none => .error .wrong

def help : List String → Stop
  | [] => .inform .help
  | [name] => if name = "help" || (Verb.ofName? name).isSome then .inform .help else .wrong
  | _ => .wrong

def scan : Scan → List String → Except Stop Invocation
  | _, [] => .error .wrong
  | state, argument :: rest =>
      if state.meetsWord argument then
        match Verb.ofName? argument with
        | some verb => ofCommand state.given verb rest
        | none => .error (if argument = "help" then help rest else .wrong)
      else
        match state.take Grammar.program argument with
        | .error stop => .error stop
        | .ok state => scan state rest

def ofArguments (arguments : List String) : Except Stop Invocation :=
  scan {} arguments

end Invocation

end CoreBench.Cli
