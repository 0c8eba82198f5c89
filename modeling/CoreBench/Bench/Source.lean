import CoreBench.Bench.Statement

/-!
Benches: instructions with directives between them. A directive belongs to the
last instruction before it, or to a later place when instructions are skipped.
Reading takes one statement after another and stops at the first error.
-/

namespace CoreBench

structure Bench where
  instructions : List String := []
  commands : List Command := []
  aliases : AliasTable := {}
  todos : List String := []
  deriving DecidableEq, Repr

structure BenchError where
  line : Nat
  statement : String
  error : DirectiveError
  deriving DecidableEq, Repr

def BenchError.message (error : BenchError) : String :=
  s!"line {error.line}: {error.error.message} in '{error.statement}'"

namespace Bench

/-- A bench while it is read, with the number of the present instruction, which
is -1 before the first one. The number has no bound here; `Draft.step?` reads with
a signed one of 64 bits and stops where that overflows. -/
structure Draft where
  bench : Bench := {}
  counter : Int := -1
  deriving DecidableEq, Repr

namespace Draft

def add (draft : Draft) (kind : List Char) (action : Action) (delay : Nat) (content : List Char)
    (line : Nat) : Except DirectiveError Draft :=
  match draft.counter with
  | .negSucc _ => .error (.noInstruction (String.ofList kind))
  | .ofNat address =>
      let command : Command := ⟨action, address, delay, String.ofList content, line⟩
      .ok { draft with bench := { draft.bench with commands := draft.bench.commands ++ [command] } }

def direct (arch : Arch) (draft : Draft) (line : Nat) (kind : List Char) (delay : Nat)
    (content : List Char) : Except DirectiveError Draft :=
  if kind = "skip".toList then .ok { draft with counter := draft.counter + delay }
  else if kind = "alias".toList then
    match draft.bench.aliases.define content with
    | .error error => .error (.definition error)
    | .ok (_, aliases) => .ok { draft with bench := { draft.bench with aliases } }
  else if kind = "end".toList then draft.add kind .finish delay content line
  else if kind = "assert".toList ∨ kind = "test".toList then
    match Comparison.parse arch draft.bench.aliases content with
    | .error error => .error error
    | .ok comparison => draft.add kind (.compare comparison) delay content line
  else if kind = "irq".toList then
    match IrqUpdate.parse arch content with
    | .error error => .error error
    | .ok update => draft.add kind (.interrupt update) delay content line
  else .error (.unknownType (String.ofList kind))

def take (arch : Arch) (draft : Draft) (line : Nat) (cs : List Char) : Except DirectiveError Draft :=
  match Statement.classify cs with
  | .error error => .error error
  | .ok .todo =>
      .ok { draft with bench := { draft.bench with todos := draft.bench.todos ++ [String.ofList cs] } }
  | .ok .remark => .ok draft
  | .ok .instruction =>
      .ok {
        bench := { draft.bench with instructions := draft.bench.instructions ++ [String.ofList cs] }
        counter := draft.counter + 1 }
  | .ok (.directive kind delay content) => draft.direct arch line kind delay content

def step (arch : Arch) (draft : Draft) (statement : Nat × List Char) : Except BenchError Draft :=
  match draft.take arch statement.1 statement.2 with
  | .error error => .error ⟨statement.1, String.ofList statement.2, error⟩
  | .ok draft => .ok draft

end Draft

def ofStatements (arch : Arch) (statements : List (Nat × List Char)) : Except BenchError Bench :=
  (statements.foldlM (Draft.step arch) {}).map Draft.bench

def parse (arch : Arch) (text : String) : Except BenchError Bench :=
  ofStatements arch (Statement.ofText text.toList)

def assemblyLine (instruction : String) (number : Nat) : String :=
  s!"{instruction}   // INSTRUCTION {number}\n"

/-- The instructions for the assembler, each with its number. -/
def assembly (bench : Bench) : String :=
  String.join (bench.instructions.mapIdx fun number instruction => assemblyLine instruction number)

end Bench

end CoreBench
