import CoreBench.Cli.Program
import CoreBench.Cli.Sandbox
import CoreBench.Proofs.Documents
import CoreBench.Proofs.Outcomes
import CoreBench.Proofs.Reuse

/-!
The verdict on some benches. A report counts the outcomes of all that has fired in the run of
its bench, and says that the bench has passed exactly if the run vouches for the core: it
succeeds, it compares something, and all that it compares holds. One report is written for each
bench, in the order of the arguments, whatever becomes of the others, and the exit code is 0
exactly if all of them have passed. How the reports are written makes no difference to it.
-/

namespace CoreBench

namespace Session

variable {P : Type} [Probe P]

/-- A run with which a bench passes. -/
structure Vouches (limit : Option Nat) (session : Session P) : Prop where
  ended : ∃ cycles, (session.run limit).1 = .ok cycles
  compared : ∃ firing ∈ session.firings limit, ∃ comparison,
    firing.command.action = .compare comparison
  held : ∀ firing ∈ session.firings limit, ∀ comparison,
    firing.command.action = .compare comparison → comparison.holds firing.snapshot = true

/-- A tally has passes and no failures exactly if something was compared and all that was
compared holds. -/
theorem passed_iff {fired : List Firing} {tally : Tally} (counts : tally.Counts fired) :
    0 < tally.passed ∧ tally.failed = 0 ↔
      (∃ firing ∈ fired, ∃ comparison, firing.command.action = .compare comparison) ∧
        ∀ firing ∈ fired, ∀ comparison, firing.command.action = .compare comparison →
          comparison.holds firing.snapshot = true := by
  rw [counts.passed, counts.failed, List.countP_pos_iff, List.countP_eq_zero]
  constructor
  · rintro ⟨⟨firing, member, passes⟩, none⟩
    obtain ⟨comparison, action, _⟩ := firing.passes_iff.mp passes
    refine ⟨⟨firing, member, comparison, action⟩, ?_⟩
    intro other member comparison action
    rw [← Bool.not_eq_false]
    exact fun fails => none other member (other.fails_iff.mpr ⟨comparison, action, fails⟩)
  · rintro ⟨⟨firing, member, comparison, action⟩, all⟩
    refine ⟨⟨firing, member, ?_⟩, ?_⟩
    · exact firing.passes_iff.mpr ⟨comparison, action, all firing member comparison action⟩
    · intro other member fails
      obtain ⟨comparison, action, unheld⟩ := other.fails_iff.mp fails
      exact Bool.false_ne_true (unheld.symm.trans (all other member comparison action))

theorem passed_iff_vouches (limit : Option Nat) (session : Session P) (name : String) :
    (Report.ofSession name (session.run limit).1 (session.run limit).2).isPassed = true ↔
      session.Vouches limit := by
  cases ran : (session.run limit).1 with
  | error error =>
      have failed : ¬ session.Vouches limit := by
        rintro ⟨⟨cycles, ended⟩, _⟩
        rw [ran] at ended
        cases ended
      simp only [failed, iff_false]
      exact Bool.false_ne_true
  | ok cycles =>
      have complete := (session.run_stepwise limit).complete ran
      have counted := passed_iff (session.run_counts limit)
      simp only [Report.ofSession, Report.ofRun, Report.isPassed, Report.failed, Option.map_none,
        Option.isNone_none, complete, Bool.true_and, Bool.and_eq_true, decide_eq_true_eq]
      refine counted.trans ⟨?_, ?_⟩
      · rintro ⟨compared, held⟩
        exact ⟨⟨cycles, ran⟩, compared, held⟩
      · rintro ⟨_, compared, held⟩
        exact ⟨compared, held⟩

end Session

namespace Report

/-- What programs are told about a bench. -/
def fields (report : Report) : List (String × Text.Json) :=
  [("name", .text report.name), ("passed", .number report.passed),
    ("failed", .number report.failures.length),
    ("failures", .array (report.failures.map .text)), ("todos", .array (report.todos.map .text)),
    ("cycles", .number report.cycles), ("completed", .boolean report.completed),
    ("error", match report.error with
      | some error => .text error
      | none => .null)]

/-- The lines that people are told about a bench. -/
def told (report : Report) : List String :=
  let verdict := if report.isPassed then "passed" else "failed"
  let ending := match report.error, report.completed with
    | some error, _ => ["    error: " ++ error]
    | none, false => ["    end directive never reached"]
    | none, true => []
  [report.name ++ " [ " ++ verdict ++ " ]",
    s!"    {report.passed} passed, {report.failures.length} failed, {report.cycles} cycles"] ++
    report.failures.map ("    " ++ ·) ++ ending

theorem to_text_told (report : Report) :
    report.toText = String.join (report.told.map (· ++ "\n")) := by
  rw [toText, lines, told]
  cases report.error with
  | some error => rfl
  | none => cases report.completed <;> rfl

end Report

/-- To ask about each of some things and to judge it by the answer is to ask about all of them
first. -/
theorem mapM_zip {m : Type → Type} [Monad m] [LawfulMonad m] {α β γ : Type} (ask : α → m β)
    (judge : α × β → γ) (xs : List α) :
    xs.mapM (fun x => (fun answer => judge (x, answer)) <$> ask x) =
      (fun answers => (xs.zip answers).map judge) <$> xs.mapM ask := by
  induction xs with
  | nil => simp
  | cons x rest ih =>
      rw [List.mapM_cons, List.mapM_cons, ih]
      simp

namespace Cli

section

variable {m : Type → Type} [Monad m] [LawfulMonad m] [Host m]

/-- The bench of a text that was asked for, or why there is none. -/
def benchOf (arch : Arch) (path : String) : Except String String → Except String Bench
  | .error reason => .error reason
  | .ok text => (Bench.parse arch text).mapError fun error => s!"{path}: {error.message}"

theorem load_bench_run (arch : Arch) (sources : Sources) (path : String) :
    (loadBench arch sources path : ExceptT String m Bench).run =
      benchOf arch path <$> (benchText sources path : ExceptT String m String).run := by
  rw [loadBench, ExceptT.run_bind, map_eq_pure_bind]
  congr 1
  funext text
  cases text with
  | error reason => rfl
  | ok text => simp [attempt, benchOf]

end

/-- A command goes on behind a request that succeeds. -/
theorem run_bind_ok {σ α β : Type} {request : ExceptT String (StateM σ) α}
    {next : α → ExceptT String (StateM σ) β} {start middle : σ} {value : α}
    (answered : request.run.run start = (.ok value, middle)) :
    (request >>= next).run.run start = (next value).run.run middle := by
  rw [ExceptT.run_bind, StateT.run_bind, answered]
  rfl

/-- The session in which a bench runs on the core that was recorded. -/
def trial (config : Config) (waveform : Waveform) (fsPerUnit : Nat) (bench : Bench) :
    Session Replay :=
  { bench, processor := { probe := Replay.start waveform fsPerUnit, config } }

/-- The text of a bench is there and can be read, and the run of the bench vouches for the
core. -/
inductive Passes (config : Config) (waveform : Waveform) (fsPerUnit : Nat) (limit : Option Nat) :
    Except String String → Prop where
  | vouched (text : String) (bench : Bench) (parsed : Bench.parse config.arch text = .ok bench)
      (vouches : (trial config waveform fsPerUnit bench).Vouches limit) :
      Passes config waveform fsPerUnit limit (.ok text)

theorem verdict_iff_passes (config : Config) (waveform : Waveform) (fsPerUnit : Nat)
    (limit : Option Nat) (name path : String) (text : Except String String) :
    (Verdict.report config waveform fsPerUnit limit name (benchOf config.arch path text)).isPassed
        = true ↔
      Passes config waveform fsPerUnit limit text := by
  cases text with
  | error reason =>
      constructor
      · exact fun passed => absurd passed Bool.false_ne_true
      · rintro ⟨⟩
  | ok text =>
      rw [benchOf]
      cases parsed : Bench.parse config.arch text with
      | error error =>
          constructor
          · exact fun passed => absurd passed Bool.false_ne_true
          · rintro ⟨_, bench, parsed', _⟩
            rw [parsed] at parsed'
            cases parsed'
      | ok bench =>
          have passed := (trial config waveform fsPerUnit bench).passed_iff_vouches limit name
          refine passed.trans ⟨?_, ?_⟩
          · exact .vouched text bench parsed
          · rintro ⟨_, bench', parsed', vouches⟩
            rw [parsed] at parsed'
            cases parsed'
            exact vouches

/-- The report on a run: the outcomes of all that has fired in it, and how it has ended. The
cycles of a failed run are all cycles of its core. -/
def account (name : String) (limit : Option Nat) (session : Session Replay) : Report where
  name
  passed := (session.allOutcomes limit).count .passed
  failures := (session.allOutcomes limit).filterMap Outcome.message?
  todos := session.bench.todos
  cycles := match (session.run limit).1 with
    | .ok cycles => cycles
    | .error _ => (session.run limit).2.processor.cycles
  completed := .finished ∈ session.allOutcomes limit
  error := match (session.run limit).1 with
    | .ok _ => none
    | .error error => some error.message

/-- The report on a bench, by its path and by its text or the reason why there is none. -/
inductive Judged (config : Config) (waveform : Waveform) (fsPerUnit : Nat) (limit : Option Nat)
    (path : String) : Except String String → Report → Prop where
  | unread (reason : String) :
      Judged config waveform fsPerUnit limit path (.error reason)
        { name := benchName path, error := some reason }
  | refused (text : String) (error : BenchError)
      (refused : Bench.parse config.arch text = .error error) :
      Judged config waveform fsPerUnit limit path (.ok text)
        { name := benchName path, error := some s!"{path}: {error.message}" }
  | ran (text : String) (bench : Bench) (parsed : Bench.parse config.arch text = .ok bench) :
      Judged config waveform fsPerUnit limit path (.ok text)
        (account (benchName path) limit (trial config waveform fsPerUnit bench))

theorem account_eq (name : String) (limit : Option Nat) (session : Session Replay) :
    Report.ofSession name (session.run limit).1 (session.run limit).2 =
      account name limit session := by
  have recorded := session.run_record limit
  have passed : (session.run limit).2.tally.passed = (session.allOutcomes limit).count .passed := by
    rw [recorded, Tally.record_all_passed, Nat.zero_add]
  have failures : (session.run limit).2.tally.failures =
      (session.allOutcomes limit).filterMap Outcome.message? := by
    rw [recorded, Tally.record_all_failures, List.nil_append]
  have completed : (session.run limit).2.tally.complete =
      decide (.finished ∈ session.allOutcomes limit) := by
    rw [Bool.eq_iff_iff, decide_eq_true_eq, recorded, Tally.record_all_complete]
    simp
  have bench := session.run_bench limit
  rw [account, ← passed, ← failures, ← completed, ← bench]
  cases (session.run limit).1 <;> rfl

theorem verdict_judged (config : Config) (waveform : Waveform) (fsPerUnit : Nat)
    (limit : Option Nat) (path : String) (text : Except String String) :
    Judged config waveform fsPerUnit limit path text
      (Verdict.report config waveform fsPerUnit limit (benchName path)
        (benchOf config.arch path text)) := by
  cases text with
  | error reason => exact .unread reason
  | ok text =>
      rw [benchOf]
      cases parsed : Bench.parse config.arch text with
      | error error => exact .refused text error parsed
      | ok bench =>
          have ran : Judged config waveform fsPerUnit limit path (.ok text) _ :=
            .ran text bench parsed
          rw [← account_eq] at ran
          exact ran

theorem Judged.unique {config : Config} {waveform : Waveform} {fsPerUnit : Nat}
    {limit : Option Nat} {path : String} {text : Except String String} {report other : Report}
    (judged : Judged config waveform fsPerUnit limit path text report)
    (judged' : Judged config waveform fsPerUnit limit path text other) : report = other := by
  cases judged with
  | unread reason =>
      cases judged' with
      | unread => rfl
  | refused text error refused =>
      cases judged' with
      | refused _ error' refused' =>
          obtain rfl := Except.error.inj (refused.symm.trans refused')
          rfl
      | ran _ bench parsed => cases refused.symm.trans parsed
  | ran text bench parsed =>
      cases judged' with
      | refused _ error refused => cases parsed.symm.trans refused
      | ran _ bench' parsed' =>
          obtain rfl := Except.ok.inj (parsed.symm.trans parsed')
          rfl

theorem Judged.name {config : Config} {waveform : Waveform} {fsPerUnit : Nat}
    {limit : Option Nat} {path : String} {text : Except String String} {report : Report}
    (judged : Judged config waveform fsPerUnit limit path text report) :
    report.name = benchName path := by
  cases judged <;> rfl

/-- One report for each bench, by its path and its text. -/
def reports (config : Config) (waveform : Waveform) (fsPerUnit : Nat) (limit : Option Nat)
    (asked : List (String × Except String String)) : List Report :=
  asked.map fun asked => Verdict.report config waveform fsPerUnit limit (benchName asked.1)
    (benchOf config.arch asked.1 asked.2)

/-- Each report is about its bench and has the verdict on its text. -/
theorem reports_judged (config : Config) (waveform : Waveform) (fsPerUnit : Nat)
    (limit : Option Nat) (asked : List (String × Except String String)) :
    List.Forall₂ (fun asked report =>
      Judged config waveform fsPerUnit limit asked.1 asked.2 report ∧
        (report.isPassed = true ↔ Passes config waveform fsPerUnit limit asked.2))
      asked (reports config waveform fsPerUnit limit asked) := by
  refine List.forall₂_map_right_iff.mpr (List.forall₂_same.mpr fun asked _ => ⟨?_, ?_⟩)
  · exact verdict_judged config waveform fsPerUnit limit asked.1 asked.2
  · exact verdict_iff_passes config waveform fsPerUnit limit _ asked.1 asked.2

/-- No other list of reports is about these benches. -/
theorem reports_unique {config : Config} {waveform : Waveform} {fsPerUnit : Nat}
    {limit : Option Nat} {asked : List (String × Except String String)} {others : List Report}
    (judged : List.Forall₂ (fun asked report =>
      Judged config waveform fsPerUnit limit asked.1 asked.2 report ∧
        (report.isPassed = true ↔ Passes config waveform fsPerUnit limit asked.2)) asked others) :
    others = reports config waveform fsPerUnit limit asked := by
  induction judged with
  | nil => rfl
  | cons first rest ih =>
      rw [ih, first.1.unique (verdict_judged config waveform fsPerUnit limit _ _)]
      rfl

theorem exit_code_iff (config : Config) (waveform : Waveform) (fsPerUnit : Nat)
    (limit : Option Nat) (asked : List (String × Except String String)) :
    Verdict.exitCode (reports config waveform fsPerUnit limit asked) = 0 ↔
      ∀ text ∈ asked.map Prod.snd, Passes config waveform fsPerUnit limit text := by
  have all : (reports config waveform fsPerUnit limit asked).all Report.isPassed = true ↔
      ∀ text ∈ asked.map Prod.snd, Passes config waveform fsPerUnit limit text := by
    rw [reports, List.all_map, List.all_eq_true, List.forall_mem_map]
    exact forall₂_congr fun asked _ =>
      verdict_iff_passes config waveform fsPerUnit limit _ asked.1 asked.2
  rw [← all, Verdict.exitCode]
  cases (reports config waveform fsPerUnit limit asked).all Report.isPassed <;> simp

section

variable {σ : Type} [Host (StateM σ)]

/-- The texts of some benches, asked for one after another. -/
def benchTexts (sources : Sources) (benches : List String) :
    StateM σ (List (Except String String)) :=
  benches.mapM fun path => (benchText sources path).run

theorem bench_texts_length (sources : Sources) (benches : List String)
    (texts : List (Except String String)) (recorded fetched : σ)
    (fetching : (benchTexts sources benches).run recorded = (texts, fetched)) :
    texts.length = benches.length := by
  induction benches generalizing texts recorded with
  | nil =>
      rw [benchTexts, List.mapM_nil] at fetching
      cases fetching
      rfl
  | cons path rest ih =>
      rw [benchTexts, List.mapM_cons, ← benchTexts, StateT.run_bind] at fetching
      generalize ((benchText sources path : ExceptT String (StateM σ) String).run).run recorded =
        first at fetching
      obtain ⟨text, next⟩ := first
      change (text :: ((benchTexts sources rest).run next).1,
        ((benchTexts sources rest).run next).2) = (texts, fetched) at fetching
      cases fetching
      exact congrArg (· + 1) (ih _ next rfl)

/-- What becomes of a system that some text is printed to, and some complained. -/
def written (output complaint : String) (state : σ) : σ :=
  ((do Host.print output; Host.complain complaint : StateM σ Unit).run state).2

/-- What has been asked for first can be judged at the end. -/
theorem reports_run (config : Config) (waveform : Waveform) (fsPerUnit : Nat)
    (limit : Option Nat) (sources : Sources) (benches : List String)
    (texts : List (Except String String)) (recorded fetched : σ)
    (fetching : (benchTexts sources benches).run recorded = (texts, fetched)) :
    (benches.mapM fun path => do
      let bench ← (loadBench config.arch sources path : ExceptT String (StateM σ) Bench).run
      return Verdict.report config waveform fsPerUnit limit (benchName path) bench : StateM σ _).run
        recorded = (reports config waveform fsPerUnit limit (benches.zip texts), fetched) := by
  simp only [load_bench_run, bind_pure_comp, Functor.map_map]
  rw [mapM_zip (fun path => (benchText sources path : ExceptT String (StateM σ) String).run)
    (fun asked => Verdict.report config waveform fsPerUnit limit (benchName asked.1)
      (benchOf config.arch asked.1 asked.2)) benches, StateT.run_map, ← benchTexts, fetching]
  rfl

theorem conclude_runs (invocation : Invocation) (benches : List String) (trace : String)
    (limit : Option Nat) (format : Format) (sources : Sources) (config : Config)
    (fsPerUnit : Nat) (waveform : Waveform) (texts : List (Except String String))
    (start configured recorded fetched : σ)
    (job : invocation.job = .run benches trace limit format sources)
    (settled : ((settings invocation.config).run : StateM σ (Except String Config)).run start =
      (.ok config, configured))
    (timed : TimeUnit.ofText config.timing.unit = .ok fsPerUnit)
    (loaded : ((recording trace).run : StateM σ (Except String Waveform)).run configured =
      (.ok waveform, recorded))
    (fetching : (benchTexts sources benches).run recorded = (texts, fetched)) :
    let reports := reports config waveform fsPerUnit (limit <|> config.timing.maxCycles)
      (benches.zip texts)
    (conclude invocation : StateM σ Nat).run start =
      (Verdict.exitCode reports, written (Verdict.rendered format invocation.quiet reports)
        (Verdict.summary format invocation.quiet reports) fetched) := by
  intro reports
  have sized : ((attempt (fun error => s!"run.time_unit: {error.message}")
      (return TimeUnit.ofText config.timing.unit) :
        ExceptT String (StateM σ) Nat)).run.run configured = (.ok fsPerUnit, configured) := by
    rw [timed]
    rfl
  have judged : ((ExceptT.lift <| benches.mapM fun path => do
      let bench ← (loadBench config.arch sources path).run
      return Verdict.report config waveform fsPerUnit (limit <|> config.timing.maxCycles)
        (benchName path) bench : ExceptT String (StateM σ) (List Report))).run.run recorded =
      (.ok reports, fetched) := by
    rw [ExceptT.run_lift, StateT.run_map, reports_run config waveform fsPerUnit _ sources benches
      texts recorded fetched fetching]
    rfl
  have performed : ((perform invocation).run : StateM σ (Except String Nat)).run start =
      (.ok (Verdict.exitCode reports), written (Verdict.rendered format invocation.quiet reports)
        (Verdict.summary format invocation.quiet reports) fetched) := by
    rw [perform, job]
    dsimp only
    rw [runBenches, run_bind_ok settled, run_bind_ok sized, run_bind_ok loaded, run_bind_ok judged]
    rfl
  rw [conclude, StateT.run_bind, performed]
  rfl

theorem rendered_json (quiet : Bool) (reports : List Report) :
    Verdict.rendered .json quiet reports =
      (Text.Json.array (reports.map fun report => .object report.fields)).toText ++ "\n" :=
  rfl

theorem rendered_text (quiet : Bool) (reports : List Report) :
    Verdict.rendered .text quiet reports =
      String.join (((reports.filter fun report => !quiet || !report.isPassed).flatMap
        Report.told).map (· ++ "\n")) := by
  rw [Verdict.rendered, funext Report.to_text_told]
  apply String.toList_inj.mp
  simp only [String.toList_join, List.flatMap_map, List.map_flatMap, List.flatMap_assoc]

theorem summary_text (quiet : Bool) (reports : List Report) :
    let passed := reports.countP Report.isPassed
    let failed := reports.countP fun report => !report.isPassed
    Verdict.summary .text quiet reports =
      if quiet then "" else s!"   {passed} passed, {failed} failed\n" := by
  have parted := List.length_eq_countP_add_countP (l := reports) Report.isPassed
  have failed : reports.length - reports.countP Report.isPassed =
      reports.countP fun report => !report.isPassed := by
    simp only [Bool.not_eq_true, Bool.decide_eq_false] at parted
    omega
  cases quiet with
  | true => rfl
  | false =>
      rw [Verdict.summary, failed]
      rfl

/-- With settings, a unit of time and a recording that can be used, one report is written for
each bench, in the order of the arguments, whatever becomes of the other benches. Programs can
read all of them from one list; people are told of all, or quietly of those that have failed. A
report has passed exactly if its bench can be read and its run vouches for the core, and the
exit code is 0 exactly if all have passed, however they are written. A run that succeeds has
fired an end directive, and no step of it has failed, not even one that fires the end. -/
theorem exit_code_of_benches (named : Option String) (benches : List String) (trace : String)
    (limit : Option Nat) (sources : Sources) (config : Config) (fsPerUnit : Nat)
    (waveform : Waveform) (texts : List (Except String String))
    (start configured recorded fetched : σ)
    (settled : ((settings named).run : StateM σ (Except String Config)).run start =
      (.ok config, configured))
    (timed : TimeUnit.ofText config.timing.unit = .ok fsPerUnit)
    (loaded : ((recording trace).run : StateM σ (Except String Waveform)).run configured =
      (.ok waveform, recorded))
    (fetching : (benchTexts sources benches).run recorded = (texts, fetched)) :
    let budget := limit <|> config.timing.maxCycles
    ∃ (code : Nat) (reports : List Report) (document : String),
      texts.length = benches.length ∧
      List.Forall₂ (fun asked report =>
        Judged config waveform fsPerUnit budget asked.1 asked.2 report ∧
          (report.isPassed = true ↔ Passes config waveform fsPerUnit budget asked.2))
        (benches.zip texts) reports ∧
      reports.map Report.name = benches.map benchName ∧
      Text.Json.read? document =
        some (.array (reports.map fun report => .object report.fields)) ∧
      (∀ quiet verbose,
        (conclude ⟨quiet, verbose, named, .run benches trace limit .json sources⟩ :
          StateM σ Nat).run start = (code, written document "" fetched)) ∧
      (∀ quiet verbose,
        let shown := reports.filter fun report => !quiet || !report.isPassed
        let passed := reports.countP Report.isPassed
        let failed := reports.countP fun report => !report.isPassed
        (conclude ⟨quiet, verbose, named, .run benches trace limit .text sources⟩ :
          StateM σ Nat).run start =
            (code, written (String.join ((shown.flatMap Report.told).map (· ++ "\n")))
              (if quiet then "" else s!"   {passed} passed, {failed} failed\n") fetched)) ∧
      (code = 0 ↔ ∀ text ∈ texts, Passes config waveform fsPerUnit budget text) ∧
      ∀ bench,
        let session := trial config waveform fsPerUnit bench
        ∀ cycles, (session.run budget).1 = .ok cycles →
          (∃ firing ∈ session.firings budget, firing.command.action = .finish) ∧
          ∀ before ∈ session.steps budget, before.step.1 = .ok () := by
  intro budget
  have all := bench_texts_length sources benches texts recorded fetched fetching
  have paths : (benches.zip texts).map Prod.fst = benches :=
    List.map_fst_zip (Nat.le_of_eq all.symm)
  have asked : (benches.zip texts).map Prod.snd = texts :=
    List.map_snd_zip (Nat.le_of_eq all)
  have zero := exit_code_iff config waveform fsPerUnit budget (benches.zip texts)
  rw [asked] at zero
  have concluded := fun quiet verbose format =>
    conclude_runs ⟨quiet, verbose, named, .run benches trace limit format sources⟩ benches
      trace limit format sources config fsPerUnit waveform texts start configured recorded fetched
      rfl settled timed loaded fetching
  refine ⟨_, reports config waveform fsPerUnit budget (benches.zip texts), _, all,
    reports_judged config waveform fsPerUnit budget (benches.zip texts), ?_,
    Text.Json.read_to_text _ "\n" Text.Json.line_gap, fun quiet verbose => ?_, fun quiet verbose => ?_,
    zero, ?_⟩
  · have own : Report.name ∘ (fun asked : String × Except String String =>
        Verdict.report config waveform fsPerUnit budget (benchName asked.1)
          (benchOf config.arch asked.1 asked.2)) = benchName ∘ Prod.fst :=
      funext fun asked =>
        (verdict_judged config waveform fsPerUnit budget asked.1 asked.2).name
    rw [reports, List.map_map, own, ← List.map_map, paths]
  · have ended := concluded quiet verbose .json
    dsimp only at ended
    rw [rendered_json] at ended
    exact ended
  · have ended := concluded quiet verbose .text
    dsimp only at ended
    rw [rendered_text, summary_text] at ended
    exact ended
  · intro bench session cycles ended
    refine ⟨session.run_finishes budget cycles ended, ?_⟩
    intro before member
    cases stepped : before.step.1 with
    | ok => rfl
    | error error =>
        have failed := session.run_failure budget before member error stepped
        rw [ended] at failed
        cases failed

/-- A bench that passes. -/
def shelfBench : String :=
  "nop\n#assert@0(pc==0)\n#end@0()"

/-- The same bench, but behind its end it drives interrupt lines that are not recorded. -/
def shelfBench' : String :=
  shelfBench ++ "\n#irq@0(1->1)"

def shelfDump : String :=
  "$timescale 1ns $end $scope module UUT $end $var reg 1 ! pcs(1) $end " ++
    "$var reg 1 ? instr_valid(1) $end $enddefinitions $end #0 b0 ! 1? #1"

def shelf : Sandbox where
  tree :=
    { files :=
        [(["a", "one"], shelfBench.toUTF8), (["a", "other"], shelfBench'.toUTF8),
          (["a", "vcd"], shelfDump.toUTF8)] }
  directory := ["a"]
  environment := fun name =>
    if name = "ISAG_NUM_GPR" || name = "ISAG_NUM_SPR" then some "0" else none

def shelfConfig : Config where
  arch := { generalCount := 0, specialCount := 0 }

def shelfWaveform : Waveform where
  fsPerUnit := 1000000
  signals :=
    [⟨"UUT.pcs(1)", 1, [⟨0, Bus.ofNat 0 1⟩]⟩, ⟨"UUT.instr_valid(1)", 1, [⟨0, Bus.ofNat 1 1⟩]⟩]
  endTime := 1000000

def shelfReports : List Report :=
  [{ name := "one", passed := 1, completed := true },
    { name := "other", passed := 1, completed := true, error := some "unknown signal 'irq'" }]

/-- The end of the second bench is reached in the step that fails, so the bench does not pass.
Its report says why, for people and for programs, and the exit code tells it in both cases. -/
theorem shelf_exit_code :
    Passes shelfConfig shelfWaveform 1000000 none (.ok shelfBench) ∧
      ¬ Passes shelfConfig shelfWaveform 1000000 none (.ok shelfBench') ∧
      ∃ (code : Nat) (document : String), code ≠ 0 ∧
        Text.Json.read? document = some (.array
          [.object [("name", .text "one"), ("passed", .number 1), ("failed", .number 0),
            ("failures", .array []), ("todos", .array []), ("cycles", .number 0),
            ("completed", .boolean true), ("error", .null)],
          .object [("name", .text "other"), ("passed", .number 1), ("failed", .number 0),
            ("failures", .array []), ("todos", .array []), ("cycles", .number 0),
            ("completed", .boolean true), ("error", .text "unknown signal 'irq'")]]) ∧
        (∀ quiet verbose,
          let ran := (conclude ⟨quiet, verbose, none, .run ["one", "other"] "vcd" none .json {}⟩ :
            StateM Sandbox Nat).run shelf
          ran.1 = code ∧ ran.2.printed = document ∧ ran.2.complaints = "") ∧
        ∀ verbose,
          let ran := (conclude ⟨false, verbose, none, .run ["one", "other"] "vcd" none .text {}⟩ :
            StateM Sandbox Nat).run shelf
          ran.1 = code ∧ ran.2.complaints = "   1 passed, 1 failed\n" ∧
            ran.2.printed = String.join
              ["one [ passed ]\n", "    1 passed, 0 failed, 0 cycles\n", "other [ failed ]\n",
                "    1 passed, 0 failed, 0 cycles\n", "    error: unknown signal 'irq'\n"] := by
  have settled : (((settings none).run : StateM Sandbox (Except String Config)).run shelf).1 =
      .ok shelfConfig := by decide +kernel
  let configured := (((settings none).run : StateM Sandbox (Except String Config)).run shelf).2
  have loaded : (((recording "vcd").run : StateM Sandbox (Except String Waveform)).run
      configured).1 = .ok shelfWaveform := by decide +kernel
  let recorded :=
    (((recording "vcd").run : StateM Sandbox (Except String Waveform)).run configured).2
  have fetching : ((benchTexts {} ["one", "other"]).run recorded).1 =
      [.ok shelfBench, .ok shelfBench'] := by decide +kernel
  let fetched := ((benchTexts {} ["one", "other"]).run recorded).2
  have silent : fetched.printed = "" ∧ fetched.complaints = "" := by decide +kernel
  obtain ⟨code, reports, document, _, judged, _, read, json, text, zero, _⟩ :=
    exit_code_of_benches none ["one", "other"] "vcd" none {} shelfConfig 1000000 shelfWaveform
      [.ok shelfBench, .ok shelfBench'] shelf configured recorded fetched (Prod.ext settled rfl)
      (by decide +kernel) (Prod.ext loaded rfl) (Prod.ext fetching rfl)
  have given : Cli.reports shelfConfig shelfWaveform 1000000 none
      [("one", .ok shelfBench), ("other", .ok shelfBench')] = shelfReports := by decide +kernel
  obtain rfl : reports = shelfReports := (reports_unique judged).trans given
  have passes : Passes shelfConfig shelfWaveform 1000000 none (.ok shelfBench) :=
    (verdict_iff_passes _ _ _ _ "one" "one" _).mp (by decide +kernel)
  have fails : ¬ Passes shelfConfig shelfWaveform 1000000 none (.ok shelfBench') := by
    rw [← verdict_iff_passes _ _ _ _ "other" "other"]
    decide +kernel
  refine ⟨passes, fails, code, document, fun success => fails (zero.mp success _ (by simp)), read,
    fun quiet verbose => ?_, fun verbose => ?_⟩
  · rw [json quiet verbose]
    refine ⟨rfl, ?_, ?_⟩
    · show fetched.printed ++ document = document
      rw [silent.1, String.empty_append]
    · show fetched.complaints ++ "" = ""
      rw [silent.2]
      rfl
  · rw [text false verbose]
    refine ⟨rfl, ?_, ?_⟩
    · show fetched.complaints ++ _ = _
      rw [silent.2]
      decide +kernel
    · show fetched.printed ++ _ = _
      rw [silent.1, String.empty_append]
      decide +kernel

end

end Cli

end CoreBench
