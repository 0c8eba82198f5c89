import CoreBench.Text.Split

/-!
Command-line arguments. They are read one after another, and the first one that
does not fit ends the reading. An option whose value is the next argument waits
for it; no argument that looks like an option can be that value. After a lone
double dash everything is a word.
-/

namespace CoreBench.Cli

/-- What an option tells about instead of doing any work. -/
inductive Topic where
  | help
  | version
  deriving DecidableEq, Repr

inductive OptionKind where
  | flag
  | single
  | repeatable
  | inform (topic : Topic)
  deriving DecidableEq, Repr

namespace OptionKind

def takesValue : OptionKind → Bool
  | single | repeatable => true
  | flag | inform _ => false

end OptionKind

/-- One option: its name after two dashes, its letter after one, and the values
that it may have. -/
structure OptionRule where
  name : String
  letter : Option Char := none
  kind : OptionKind
  accepts : String → Bool := fun _ => true

/-- The options of a command and the most words that it takes. -/
structure Grammar where
  rules : List OptionRule
  maxWords : Option Nat := none

inductive Stop where
  | wrong
  | inform (topic : Topic)
  deriving DecidableEq, Repr

structure Given where
  flags : List String := []
  values : List (String × String) := []
  words : List String := []
  deriving DecidableEq, Repr

namespace Given

def hasFlag (given : Given) (name : String) : Bool :=
  given.flags.contains name

def valuesOf (given : Given) (name : String) : List String :=
  (given.values.filter fun entry => entry.1 = name).map Prod.snd

def value? (given : Given) (name : String) : Option String :=
  given.values.lookup name

end Given

/-- Arguments while they are read: the option that waits for its value, and
whether only words follow. -/
structure Scan where
  given : Given := {}
  pending : Option OptionRule := none
  literal : Bool := false

namespace Scan

def addWord (grammar : Grammar) (scan : Scan) (word : String) : Except Stop Scan :=
  if grammar.maxWords.all fun most => scan.given.words.length < most then
    .ok { scan with given := { scan.given with words := scan.given.words ++ [word] } }
  else .error .wrong

/-- A value of an option. Only repeatable options may have more than one. -/
def addValue (scan : Scan) (rule : OptionRule) (value : String) : Except Stop Scan :=
  if !rule.accepts value then .error .wrong
  else if rule.kind ≠ .repeatable ∧ (scan.given.value? rule.name).isSome then .error .wrong
  else .ok {
    scan with
    given := { scan.given with values := scan.given.values ++ [(rule.name, value)] }
    pending := none }

def addFlag (scan : Scan) (rule : OptionRule) : Except Stop Scan :=
  match rule.kind with
  | .inform topic => .error (.inform topic)
  | _ =>
      if scan.given.hasFlag rule.name then .error .wrong
      else .ok { scan with given := { scan.given with flags := scan.given.flags ++ [rule.name] } }

/-- An option by its name, with the value after an equals sign if there is one. -/
def takeNamed (grammar : Grammar) (scan : Scan) (name : String) (value : Option String) :
    Except Stop Scan :=
  match grammar.rules.find? fun rule => rule.name = name with
  | none => .error .wrong
  | some rule =>
      match rule.kind.takesValue, value with
      | true, some value => scan.addValue rule value
      | true, none => .ok { scan with pending := some rule }
      | false, none => scan.addFlag rule
      | false, some _ => .error .wrong

/-- Options by their letters. The first one that takes a value has the rest of the
argument for it, if anything is left. -/
def takeLetters (grammar : Grammar) (scan : Scan) : List Char → Except Stop Scan
  | [] => .ok scan
  | c :: cs =>
      match grammar.rules.find? fun rule => rule.letter = some c with
      | none => .error .wrong
      | some rule =>
          if rule.kind.takesValue then
            match cs with
            | [] => .ok { scan with pending := some rule }
            | '=' :: value => scan.addValue rule (String.ofList value)
            | value => scan.addValue rule (String.ofList value)
          else
            match scan.addFlag rule with
            | .error stop => .error stop
            | .ok scan => takeLetters grammar scan cs

def take (grammar : Grammar) (scan : Scan) (argument : String) : Except Stop Scan :=
  if scan.literal then scan.addWord grammar argument
  else
    match scan.pending, argument.toList with
    | some _, '-' :: _ :: _ => .error .wrong
    | some rule, _ => scan.addValue rule argument
    | none, ['-', '-'] => .ok { scan with literal := true }
    | none, '-' :: '-' :: cs =>
        match Text.cut ['='] cs with
        | some (name, value) => scan.takeNamed grammar (String.ofList name) (some (String.ofList value))
        | none => scan.takeNamed grammar (String.ofList cs) none
    | none, '-' :: c :: cs => scan.takeLetters grammar (c :: cs)
    | none, _ => scan.addWord grammar argument

/-- Whether the argument is neither an option, nor the value of one, nor behind the
double dash. -/
def meetsWord (scan : Scan) (argument : String) : Bool :=
  scan.pending.isNone && !scan.literal && (argument.toList.head? ≠ some '-' || argument = "-")

/-- No option may be left without its value. -/
def finish (scan : Scan) : Except Stop Given :=
  if scan.pending.isSome then .error .wrong else .ok scan.given

end Scan

def Grammar.read (grammar : Grammar) (arguments : List String) : Except Stop Given :=
  arguments.foldlM (Scan.take grammar) {} >>= Scan.finish

end CoreBench.Cli
