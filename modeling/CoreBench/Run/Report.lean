import CoreBench.Run.Session
import CoreBench.Text.Json

/-!
The result of running one bench, for people and for programs.
-/

namespace CoreBench

structure Report where
  name : String
  passed : Nat := 0
  failures : List String := []
  todos : List String := []
  cycles : Nat := 0
  completed : Bool := false
  error : Option String := none
  deriving DecidableEq, Repr

namespace Report

def ofRun (name : String) (bench : Bench) (tally : Tally) (cycles : Nat) (error : Option RunError) : Report :=
  { name
    passed := tally.passed
    failures := tally.failures
    todos := bench.todos
    cycles
    completed := tally.complete
    error := error.map RunError.message }

/-- The report of a session that has run. The cycles of a failed run are all
cycles of its core. -/
def ofSession {P : Type} (name : String) (result : Except RunError Nat) (session : Session P) : Report :=
  match result with
  | .ok cycles => ofRun name session.bench session.tally cycles none
  | .error error => ofRun name session.bench session.tally session.processor.cycles (some error)

def errored (name error : String) : Report :=
  { name, error := some error }

def failed (report : Report) : Nat :=
  report.failures.length

/-- A bench passes when it ran to its end without an error, and at least one
comparison held and none failed. -/
def isPassed (report : Report) : Bool :=
  report.error.isNone && report.completed && 0 < report.passed && report.failed = 0

def lines (report : Report) : List String :=
  let verdict := if report.isPassed then "passed" else "failed"
  let ending := match report.error with
    | some error => [s!"    error: {error}"]
    | none => if report.completed then [] else ["    end directive never reached"]
  [s!"{report.name} [ {verdict} ]",
   s!"    {report.passed} passed, {report.failed} failed, {report.cycles} cycles"] ++
    report.failures.map (fun failure => s!"    {failure}") ++ ending

def toText (report : Report) : String :=
  String.join (report.lines.map fun line => line ++ "\n")

def toJson (report : Report) : Text.Json :=
  .object [
    ("name", .text report.name),
    ("passed", .number report.passed),
    ("failed", .number report.failed),
    ("failures", .array (report.failures.map .text)),
    ("todos", .array (report.todos.map .text)),
    ("cycles", .number report.cycles),
    ("completed", .boolean report.completed),
    ("error", match report.error with
      | some error => .text error
      | none => .null)]

end Report

end CoreBench
