import CoreBench.Cli.Inputs
import CoreBench.Probe.Replay
import CoreBench.Run.Report
import CoreBench.TimeUnit
import CoreBench.Waveform.Dump

/-!
Running benches against one recorded run of the core. Every bench starts at the
beginning of the recording and has one report, in the order of the arguments; what
keeps a bench from being read is part of its report.
-/

namespace CoreBench.Cli

namespace Verdict

def report (config : Config) (waveform : Waveform) (fsPerUnit : Nat) (limit : Option Nat)
    (name : String) : Except String Bench → Report
  | .error reason => Report.errored name reason
  | .ok bench =>
      let session : Session Replay :=
        { bench, processor := { probe := Replay.start waveform fsPerUnit, config } }
      let (result, session) := session.run limit
      Report.ofSession name result session

/-- Success means that every bench has passed. -/
def exitCode (reports : List Report) : Nat :=
  if reports.all Report.isPassed then 0 else 1

/-- The reports as they are printed. A quiet text is about failures only. -/
def rendered (format : Format) (quiet : Bool) (reports : List Report) : String :=
  match format with
  | .json => (Text.Json.array (reports.map Report.toJson)).toText ++ "\n"
  | .text =>
      String.join ((reports.filter fun report => !quiet || !report.isPassed).map Report.toText)

def summary (format : Format) (quiet : Bool) (reports : List Report) : String :=
  match format, quiet with
  | .text, false =>
      let passed := reports.countP Report.isPassed
      s!"   {passed} passed, {reports.length - passed} failed\n"
  | _, _ => ""

end Verdict

variable {m : Type → Type} [Monad m] [Host m]

/-- The recording that benches are run against. -/
def recording (path : String) : ExceptT String m Waveform :=
  attempt (fun error => s!"{path}: {error.message}") (return Waveform.load (← Host.readText path))

def runBenches (invocation : Invocation) (benches : List String) (trace : String)
    (limit : Option Nat) (format : Format) (sources : Sources) : ExceptT String m Nat := do
  let config ← settings invocation.config
  let fsPerUnit ← attempt (fun error => s!"run.time_unit: {error.message}")
    (return TimeUnit.ofText config.timing.unit)
  let waveform ← recording trace
  let reports ← ExceptT.lift <| benches.mapM fun path => do
    let bench ← (loadBench config.arch sources path).run
    return Verdict.report config waveform fsPerUnit (limit <|> config.timing.maxCycles)
      (benchName path) bench
  ExceptT.lift <| Host.print (Verdict.rendered format invocation.quiet reports)
  ExceptT.lift <| Host.complain (Verdict.summary format invocation.quiet reports)
  return Verdict.exitCode reports

end CoreBench.Cli
