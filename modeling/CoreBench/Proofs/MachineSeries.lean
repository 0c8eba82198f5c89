import CoreBench.Proofs.Accounting
import CoreBench.Proofs.MachineRun
import CoreBench.Proofs.Reuse
import CoreBench.Waveform.Dump

/-!
Benches that are read and run one after another by one runner, on the machine. While a bench
is read, directives are cut out of their statements by places, and the number of the present
instruction is a signed word. A change of a dump goes to its signals by their places. No bench
of fewer than `2 ^ 31` statements and no dump makes the machine stop, and a run does so only
with more passed comparisons than it can count.
-/

namespace CoreBench

open Machine

namespace Statement

/-- The body of a directive and what stands before it, taken out by the places of the first
opening and the last closing parenthesis. -/
def bodyAt? (cs : List Char) : Option (Option (List Char × List Char)) :=
  match (Text.cut ['('] cs).map fun parts => parts.1.length with
  | none => some none
  | some first =>
      match ((Text.cutLast ')' cs).map fun parts => parts.1.length).filter (first < ·) with
      | none => some none
      | some last => do
          let head ← part? cs 0 first
          let content ← part? cs (first + 1) last
          return some (head, content)

/-- A closing parenthesis that is not behind the opening one is in front of it. -/
theorem closing_in_front (head rest before after : List Char)
    (same : head ++ '(' :: rest = before ++ ')' :: after) (outside : ')' ∉ rest) :
    before.length ≤ head.length := by
  rcases List.append_eq_append_iff.mp same with ⟨middle, rfl, tail⟩ | ⟨middle, rfl, _⟩
  · cases middle with
    | nil => simp
    | cons c middle =>
        obtain ⟨-, rfl⟩ := List.cons.inj tail
        simp at outside
  · simp

theorem body_at_eq (cs : List Char) : bodyAt? cs = some (body? cs) := by
  rw [bodyAt?, body?]
  cases opened : Text.cut ['('] cs with
  | none => rfl
  | some parts =>
      obtain ⟨head, rest⟩ := parts
      obtain ⟨rfl, -⟩ := (Text.cut_single_iff '(' cs head rest).mp opened
      rw [Option.map_some]
      dsimp only
      cases closed : Text.cutLast ')' rest with
      | some parts =>
          obtain ⟨content, after⟩ := parts
          obtain ⟨rfl, absent⟩ := (Text.cut_last_iff ')' rest content after).mp closed
          have last : Text.cutLast ')' (head ++ '(' :: (content ++ ')' :: after)) =
              some (head ++ '(' :: content, after) :=
            (Text.cut_last_iff ')' _ _ _).mpr ⟨by simp, absent⟩
          have behind : head.length < (head ++ '(' :: content).length := by simp
          have front := part_eq [] head ('(' :: (content ++ ')' :: after))
          have inner := part_eq (head ++ ['(']) content (')' :: after)
          simp only [List.nil_append, List.length_nil] at front
          simp only [List.append_assoc, List.singleton_append, List.length_append,
            List.length_singleton] at inner
          rw [last, Option.map_some, Option.filter_some, decide_eq_true behind]
          simp only [↓reduceIte, front, List.length_append, inner,
            Option.bind_eq_bind, Option.bind_some]
          rfl
      | none =>
          have outside := (Text.cut_last_none_iff ')' rest).mp closed
          cases last : Text.cutLast ')' (head ++ '(' :: rest) with
          | none => rfl
          | some parts =>
              obtain ⟨before, after⟩ := parts
              obtain ⟨same, -⟩ := (Text.cut_last_iff ')' _ before after).mp last
              have early : ¬head.length < before.length :=
                Nat.not_lt.mpr (closing_in_front head rest before after same outside)
              rw [Option.map_some, Option.filter_some, decide_eq_false early]
              rfl

end Statement

namespace Bench

/-- One statement, if the number of the present instruction still is a signed word. -/
def Draft.step? (arch : Arch) (draft : Draft) (statement : Nat × List Char) :
    Option (Except BenchError Draft) :=
  match draft.step arch statement with
  | .error error => some (.error error)
  | .ok next => if next.counter < 0x8000000000000000 then some (.ok next) else none

def Draft.run? (arch : Arch) :
    Draft → List (Nat × List Char) → Option (Except BenchError Draft)
  | draft, [] => some (.ok draft)
  | draft, statement :: rest =>
      match draft.step? arch statement with
      | none => none
      | some (.error error) => some (.error error)
      | some (.ok next) => next.run? arch rest

def parse? (arch : Arch) (text : String) : Option (Except BenchError Bench) :=
  (Draft.run? arch {} (Statement.ofText text.toList)).map fun read => read.map Draft.bench

namespace Draft

/-- No statement moves the number further than a delay of 32 bits can say. -/
theorem step_counter (arch : Arch) (draft next : Draft) (line : Nat) (cs : List Char)
    (stepped : draft.step arch (line, cs) = .ok next) :
    next.counter < draft.counter + 0x100000000 := by
  obtain ⟨form, written, takes⟩ := (step_ok_iff arch draft next line cs).mp stepped
  have skipped := Statement.skipped_lt cs form written
  rw [show 1 <<< 32 = 0x100000000 from rfl] at skipped
  cases takes with
  | skip delay content =>
      rw [Statement.skipped, if_pos rfl] at skipped
      dsimp only
      omega
  | remark => omega
  | todo | instruction | define | command =>
      dsimp only
      omega

/-- A text of so many statements cannot lead beyond the signed words. The induction is on the
statements that are still to come. -/
theorem run_eq (arch : Arch) (draft : Draft) (statements : List (Nat × List Char))
    (few : draft.counter + statements.length * 0x100000000 < 0x8000000000000000) :
    draft.run? arch statements = some (statements.foldlM (step arch) draft) := by
  induction statements generalizing draft with
  | nil => rfl
  | cons statement rest ih =>
      rw [run?, step?, List.foldlM_cons]
      cases stepped : draft.step arch statement with
      | error error => rfl
      | ok next =>
          have near := step_counter arch draft next statement.1 statement.2 stepped
          rw [List.length_cons] at few
          have here : next.counter < 0x8000000000000000 := by omega
          dsimp only
          rw [if_pos here]
          exact ih next (by omega)

end Draft

theorem parse_eq (arch : Arch) (text : String)
    (few : (Statement.ofText text.toList).length < 2 ^ 31) :
    parse? arch text = some (parse arch text) := by
  rw [parse?, Draft.run_eq arch {} _ (by dsimp only; omega)]
  rfl

theorem Draft.takes_within (arch : Arch) (draft after : Draft) (line : Nat) (cs : List Char)
    (form : Statement) (takes : Takes arch draft line cs form after)
    (within : ∀ command ∈ draft.bench.commands, command.Within arch) :
    ∀ command ∈ after.bench.commands, command.Within arch := by
  cases takes with
  | todo => exact within
  | remark => exact within
  | instruction => exact within
  | skip => exact within
  | define => exact within
  | command delay reads reached =>
      intro command member
      rcases List.mem_append.mp member with old | new
      · exact within command old
      · obtain rfl := List.mem_singleton.mp new
        intro comparison action
        cases reads with
        | finish => cases action
        | interrupt read => cases action
        | compare named read =>
            cases action
            obtain ⟨_, left, right, _, one, other⟩ := (Comparison.parse_ok_iff _ _ _ _).mp read
            exact ⟨Operand.parse_within _ _ left _ one, Operand.parse_within _ _ right _ other⟩

/-- The operands of a bench that has been read fit the core. -/
theorem parse_within (arch : Arch) (text : String) (bench : Bench)
    (read : parse arch text = .ok bench) :
    ∀ command ∈ bench.commands, command.Within arch := by
  obtain ⟨draft, ran, rfl⟩ := (of_statements_ok_iff arch _ bench).mp read
  exact Draft.run_keeps arch _ (Draft.takes_within arch) _ {} draft ran nofun

end Bench

namespace Waveform

/-- The value with lines above its top one, which it needs to have. -/
def extend? (value : Bus) (width : Nat) : Option Bus := do
  let top ← difference? value.width 1
  let level ← value.levels[top]?
  return value.resize width (match level with
    | .unknown => .unknown
    | .floating => .floating
    | _ => .low)

theorem extend_eq (value : Bus) (width : Nat) (nonempty : 0 < value.width) :
    extend? value width = some (extend value width) := by
  have inside : value.width - 1 < value.levels.length := Nat.sub_lt nonempty Nat.one_pos
  have last : value.levels.getLast? = some value.levels[value.width - 1] := by
    rw [List.getLast?_eq_getElem?]
    exact List.getElem?_eq_getElem inside
  have positive : 1 ≤ value.width := nonempty
  rw [extend?, difference?, if_pos positive]
  simp only [Option.bind_eq_bind, Option.bind_some, List.getElem?_eq_getElem inside]
  rw [extend, levelAbove, last]
  cases value.levels[value.width - 1] <;> rfl

/-- The places of the variables with an identifier, of those from a place on. -/
def placesFrom (identifier : List Char) : Nat → List Variable → List Nat
  | _, [] => []
  | place, entry :: rest =>
      if entry.identifier = identifier then place :: placesFrom identifier (place + 1) rest
      else placesFrom identifier (place + 1) rest

/-- Adds a value to the variable at a place. -/
def noteAt? (time : Nat) (value : Bus) (declared : List Variable) (place : Nat) :
    Option (List Variable) := do
  let entry ← declared[place]?
  let extended ← extend? value entry.width
  return declared.set place { entry with newest := ⟨time, extended⟩ :: entry.newest }

def Progress.record? (progress : Progress) (line : Nat) (identifier levels : List Char) :
    Option (Except LoadError Progress) :=
  let places := placesFrom identifier 0 progress.declared
  if places.isEmpty then some (.ok { progress with place := .changes })
  else
    match (Bus.ofChars? levels).filter fun value => 0 < value.width with
    | none => some (.error (.malformed line (.value (String.ofList levels))))
    | some value =>
        (places.foldlM (noteAt? progress.time value) progress.declared).map fun declared =>
          .ok { progress with place := .changes, declared }

theorem places_empty (identifier : List Char) (place : Nat) (declared : List Variable) :
    (placesFrom identifier place declared).isEmpty =
      !declared.any fun entry => entry.identifier = identifier := by
  induction declared generalizing place with
  | nil => rfl
  | cons entry rest ih =>
      rw [placesFrom, List.any_cons]
      by_cases own : entry.identifier = identifier
      · simp [own]
      · rw [if_neg own, ih, decide_eq_false own, Bool.false_or]

/-- A value goes to each variable with the identifier once. The variables in front are those
that have been passed. -/
theorem note_all (identifier : List Char) (time : Nat) (value : Bus) (nonempty : 0 < value.width)
    (passed declared : List Variable) :
    (placesFrom identifier passed.length declared).foldlM (noteAt? time value)
        (passed ++ declared) =
      some (passed ++ declared.map fun entry =>
        if entry.identifier = identifier then
          { entry with newest := ⟨time, extend value entry.width⟩ :: entry.newest }
        else entry) := by
  induction declared generalizing passed with
  | nil => rfl
  | cons entry rest ih =>
      rw [placesFrom, List.map_cons]
      by_cases own : entry.identifier = identifier
      · have noted := ih (passed ++
          [{ entry with newest := ⟨time, extend value entry.width⟩ :: entry.newest }])
        rw [List.length_append, List.length_singleton, List.append_assoc, List.append_assoc,
          List.singleton_append, List.singleton_append] at noted
        have here : (passed ++ entry :: rest)[passed.length]? = some entry := by simp
        rw [if_pos own, if_pos own, List.foldlM_cons, noteAt?, here]
        simp only [Option.bind_eq_bind, Option.bind_some, extend_eq value _ nonempty,
          Option.pure_def, List.set_append_right _ _ (Nat.le_refl _), Nat.sub_self,
          List.set_cons_zero]
        exact noted
      · have noted := ih (passed ++ [entry])
        rw [List.length_append, List.length_singleton, List.append_assoc, List.append_assoc,
          List.singleton_append, List.singleton_append] at noted
        rw [if_neg own, if_neg own]
        exact noted

/-- A change is recorded at places that exist, and only values that have a top line are
extended. -/
theorem Progress.record_eq (progress : Progress) (line : Nat) (identifier levels : List Char) :
    progress.record? line identifier levels = some (progress.record line identifier levels) := by
  rw [record?, record, places_empty]
  cases progress.declared.any fun entry => entry.identifier = identifier with
  | false => rfl
  | true =>
      cases read : (Bus.ofChars? levels).filter fun value => 0 < value.width with
      | none => rfl
      | some value =>
          have nonempty : 0 < value.width := by
            have kept := (Option.filter_eq_some_iff.mp read).2
            exact of_decide_eq_true kept
          have noted := note_all identifier progress.time value nonempty [] progress.declared
          rw [List.length_nil, List.nil_append, List.nil_append] at noted
          dsimp only [Bool.not_true]
          rw [noted]
          rfl

end Waveform

/-- A bench text with the core and the budget to run it. -/
structure Task where
  text : String
  core : Processor (Stimulus ⊕ Replay)
  limit : Option Nat := none

namespace Session

/-- Reads and runs benches in order. What a run leaves in the queue stays there. -/
def series (arch : Arch) : List Pending → List Task →
    List (Except BenchError (Except RunError Nat × Session (Stimulus ⊕ Replay)))
  | _, [] => []
  | queue, task :: rest =>
      match Bench.parse arch task.text with
      | .error error => .error error :: series arch queue rest
      | .ok bench =>
          let ran := run task.limit ⟨bench, task.core, {}, queue⟩
          .ok ran :: series arch ran.2.queue rest

def series? (arch : Arch) : List Pending → List Task →
    Option (List (Except BenchError (Except RunError Nat × Session (Stimulus ⊕ Replay))))
  | _, [] => some []
  | queue, task :: rest => do
      match ← Bench.parse? arch task.text with
      | .error error =>
          let later ← series? arch queue rest
          return .error error :: later
      | .ok bench =>
          let ran ← run? task.limit ⟨bench, task.core, {}, queue⟩
          let later ← series? arch ran.2.queue rest
          return .ok ran :: later

/-- The runs count their passed comparisons in words. -/
def inWords (readings : List (Except BenchError (Except RunError Nat ×
    Session (Stimulus ⊕ Replay)))) : Bool :=
  readings.all fun
    | .error _ => true
    | .ok ran => ran.2.tally.passed < wordLimit

theorem in_words_iff (readings : List (Except BenchError (Except RunError Nat ×
    Session (Stimulus ⊕ Replay)))) :
    inWords readings = true ↔ ∀ ran, .ok ran ∈ readings → ran.2.tally.passed < wordLimit := by
  rw [inWords, List.all_eq_true]
  constructor
  · intro each ran member
    exact of_decide_eq_true (each (.ok ran) member)
  · intro fit reading member
    cases reading with
    | error error => rfl
    | ok ran => exact decide_eq_true (fit ran member)

theorem in_words_error (error : BenchError)
    (readings : List (Except BenchError (Except RunError Nat × Session (Stimulus ⊕ Replay)))) :
    inWords (.error error :: readings) = inWords readings :=
  rfl

theorem in_words_ok (ran : Except RunError Nat × Session (Stimulus ⊕ Replay))
    (readings : List (Except BenchError (Except RunError Nat × Session (Stimulus ⊕ Replay)))) :
    inWords (.ok ran :: readings) = (decide (ran.2.tally.passed < wordLimit) && inWords readings) :=
  rfl

/-- A run that stops the machine stops the series. -/
theorem series_ends (config : Config) (usable : config.Usable) (tasks : List Task)
    (queue : List Pending) (configured : ∀ task ∈ tasks, task.core.config = config)
    (sound : ∀ task ∈ tasks, MachineProbe.Sound task.core.probe)
    (counter : ∀ task ∈ tasks, task.core.cycles < wordLimit)
    (few : ∀ task ∈ tasks, (Statement.ofText task.text.toList).length < 2 ^ 31)
    (counted : ∀ ran, .ok ran ∈ series config.arch queue tasks → ran.1 ≠ .error .counterFull) :
    series? config.arch queue tasks =
      if inWords (series config.arch queue tasks) then some (series config.arch queue tasks)
      else none := by
  induction tasks generalizing queue with
  | nil => rfl
  | cons task rest ih =>
      obtain ⟨own, configured⟩ := List.forall_mem_cons.mp configured
      obtain ⟨steady, sound⟩ := List.forall_mem_cons.mp sound
      obtain ⟨below, counter⟩ := List.forall_mem_cons.mp counter
      obtain ⟨short, few⟩ := List.forall_mem_cons.mp few
      rw [series] at counted
      rw [series?, series, Bench.parse_eq _ _ short]
      cases read : Bench.parse config.arch task.text with
      | error error =>
          rw [read] at counted
          have later := ih queue configured sound counter few fun ran member =>
            counted ran (List.mem_cons_of_mem _ member)
          simp only [Option.bind_eq_bind, Option.bind_some, later, in_words_error]
          by_cases words : inWords (series config.arch queue rest) <;>
            simp only [words, Bool.false_eq_true, ↓reduceIte] <;> rfl
      | ok bench =>
          rw [read] at counted
          dsimp only at counted
          have within := Bench.parse_within config.arch task.text bench read
          have ran := run_on_machine ⟨bench, task.core, {}, queue⟩ task.limit
            (by dsimp only; rw [own]; exact usable) steady
            (by dsimp only; rw [own]; exact within) (Nat.le_of_lt below)
            (counted _ List.mem_cons_self)
          -- The rest begins with what this run leaves in the queue.
          have later := ih (run task.limit ⟨bench, task.core, {}, queue⟩).2.queue configured sound
            counter few fun ran member => counted ran (List.mem_cons_of_mem _ member)
          simp only [Option.bind_eq_bind, Option.bind_some, ran, Tally.fits?, in_words_ok]
          by_cases fits : (run task.limit ⟨bench, task.core, {}, queue⟩).2.tally.passed < wordLimit
          · simp only [fits, decide_true, ↓reduceIte, Option.bind_some, later, Bool.true_and]
            by_cases words : inWords (series config.arch
                (run task.limit ⟨bench, task.core, {}, queue⟩).2.queue rest) <;>
              simp only [words, Bool.false_eq_true, ↓reduceIte] <;> rfl
          · simp only [fits, decide_false, ↓reduceIte, Option.bind_none, Bool.false_and,
              Bool.false_eq_true]

/-- Benches that are read for a core and run one after another by one runner, with any
entries in its queue: the machine stops if one of the runs counts more passed comparisons than
a word holds, and if none does, reading them, running them and loading the dumps that are
replayed give what the model gives. The steps of a run times the commands of the bench bound
the count. -/
theorem series_on_machine (config : Config) (usable : config.Usable) (tasks : List Task)
    (queue : List Pending) (configured : ∀ task ∈ tasks, task.core.config = config)
    (sound : ∀ task ∈ tasks, MachineProbe.Sound task.core.probe)
    (counter : ∀ task ∈ tasks, task.core.cycles < wordLimit)
    (few : ∀ task ∈ tasks, (Statement.ofText task.text.toList).length < 2 ^ 31)
    (counted : ∀ ran, .ok ran ∈ series config.arch queue tasks → ran.1 ≠ .error .counterFull) :
    ((∀ ran, .ok ran ∈ series config.arch queue tasks → ran.2.tally.passed < wordLimit) →
        series? config.arch queue tasks = some (series config.arch queue tasks)) ∧
      (∀ ran, .ok ran ∈ series config.arch queue tasks → wordLimit ≤ ran.2.tally.passed →
        series? config.arch queue tasks = none) ∧
      (∀ cs : List Char, Statement.bodyAt? cs = some (Statement.body? cs)) ∧
      (∀ (progress : Waveform.Progress) (line : Nat) (identifier levels : List Char),
        progress.record? line identifier levels = some (progress.record line identifier levels)) ∧
      ∀ (limit : Option Nat) (session : Session (Stimulus ⊕ Replay)),
        (session.run limit).2.tally.passed ≤
          (session.steps limit).length * session.bench.commands.length := by
  have ends := series_ends config usable tasks queue configured sound counter few counted
  refine ⟨fun fit => ?_, fun ran member full => ?_, Statement.body_at_eq,
    Waveform.Progress.record_eq, fun limit session => session.run_passed limit⟩
  · rw [ends, if_pos ((in_words_iff _).mpr fit)]
  · rw [ends, if_neg fun fit => Nat.not_lt.mpr full ((in_words_iff _).mp fit ran member)]

def steadyConfig : Config where
  arch := { generalCount := 1, specialCount := 0 }
  wiring := { pc := "pc", general := "r\x7bindex\x7d", strobe := none, reversed := false }
  timing := { cycle := 1 }

def steadyTrace : Waveform where
  fsPerUnit := 1
  signals := [⟨"pc", 8, [⟨0, Bus.ofNat 0 8⟩]⟩, ⟨"r0", 4, [⟨0, Bus.ofNat 5 4⟩]⟩]
  endTime := 40

/-- A bench that is cut off in a simulation, one that cannot be read, and a shorter one on a
recording. -/
def steadyTasks : List Task :=
  [⟨"nop\n#end@9()\n#assert@9(r0==0)\n#assert@9(r0==1)",
      ⟨.inl { signals := [("pc", Bus.ofNat 0 8), ("r0", Bus.ofNat 5 4)] }, steadyConfig, none, 0⟩,
      some 1⟩,
    ⟨"nop\n#assert(r0[32:0]==1)", ⟨.inl {}, steadyConfig, none, 0⟩, none⟩,
    ⟨"nop\n#assert@0(r0[3:1]==2)\n#end()",
      ⟨.inr (Replay.start steadyTrace 10), steadyConfig, none, 7⟩, none⟩]

/-- The first bench leaves entries for three commands, and the last one has only two. -/
theorem steady_on_machine :
    let outcome := fun read : Except BenchError
        (Except RunError Nat × Session (Stimulus ⊕ Replay)) =>
      read.toOption.map fun ran => (ran.1, ran.2.tally, ran.2.queue.map Pending.command)
    (series? steadyConfig.arch [] steadyTasks).map (List.map outcome) =
      some [some (.error (.cycleLimit 1), ⟨0, [], false⟩, [0, 1, 2, 0, 1, 2]), none,
        some (.ok 1, ⟨2, [], true⟩, [1])] := by
  intro outcome
  have outcomes : (series steadyConfig.arch [] steadyTasks).map outcome =
      [some (.error (.cycleLimit 1), ⟨0, [], false⟩, [0, 1, 2, 0, 1, 2]), none,
        some (.ok 1, ⟨2, [], true⟩, [1])] := by decide +kernel
  have ends : ∀ ran, .ok ran ∈ series steadyConfig.arch [] steadyTasks →
      ran.1 ≠ .error .counterFull ∧ ran.2.tally.passed < wordLimit := by
    intro ran member
    have among := List.mem_map_of_mem (f := outcome) member
    rw [outcomes] at among
    simp only [outcome, Except.toOption, Option.map_some, List.mem_cons, Option.some.injEq,
      Prod.mk.injEq, reduceCtorEq, List.not_mem_nil, or_false, false_or] at among
    rcases among with ⟨ended, tally, -⟩ | ⟨ended, tally, -⟩ <;> rw [ended, tally] <;> decide
  obtain ⟨same, -⟩ := series_on_machine steadyConfig (by constructor <;> decide) steadyTasks []
    (by decide +kernel)
    (List.forall_mem_cons.mpr ⟨trivial, List.forall_mem_cons.mpr ⟨trivial,
      List.forall_mem_cons.mpr ⟨(by decide : 1 ≤ 10), nofun⟩⟩⟩)
    (by decide +kernel) (by decide +kernel) fun ran member => (ends ran member).1
  rw [same fun ran member => (ends ran member).2, Option.map_some, outcomes]

def bareConfig : Config where
  arch := { generalCount := 0, specialCount := 0 }
  wiring := { pc := "pc", strobe := none, reversed := false }
  timing := { cycle := 1 }

def bareSignals : Table Bus := [("pc", Bus.ofNat 0 8)]

/-- In each of `2 ^ 63` cycles, the last of which spends the budget, two comparisons pass. -/
def countingTask : Task :=
  ⟨"nop\n#assert@0(pc==0)\n#assert@0(pc==0)",
    ⟨.inl { signals := bareSignals }, bareConfig, none, 0⟩, some (2 ^ 63 - 1)⟩

def countingBench : Bench where
  instructions := ["nop"]
  commands :=
    let holds := .compare ⟨.programCounter, .equal, .constant 0⟩
    [⟨holds, 0, 0, "pc==0", 2⟩, ⟨holds, 0, 0, "pc==0", 3⟩]

theorem counting_parsed : Bench.parse bareConfig.arch countingTask.text = .ok countingBench := by
  decide +kernel

/-- The run in one of its cycles, with a number of comparisons that have passed. -/
def counting (cycles passed : Nat) (sampled : Option Snapshot) : Session (Stimulus ⊕ Replay) :=
  ⟨countingBench,
    ⟨.inl { now := cycles + 1, signals := bareSignals }, bareConfig, sampled, cycles⟩,
    { passed }, []⟩

theorem counting_fire (cycles passed : Nat) (command : Command)
    (member : command ∈ countingBench.commands) :
    (counting cycles passed (some { pc := some 0 })).fire? { pc := some 0 } command =
      (sum? wordLimit passed 1).map fun passed =>
        (.ok (), counting cycles passed (some { pc := some 0 })) := by
  have executed : command.execute? { pc := some 0 } bareConfig.arch = some .passed := by
    revert command
    decide +kernel
  rw [fire?]
  dsimp only [counting]
  rw [executed]
  dsimp only [Tally.record?]
  rw [Option.map_map]
  rfl

theorem counting_step (cycles passed : Nat) (below : passed + 1 < wordLimit) :
    (counting cycles passed none).step? =
      (sum? wordLimit (passed + 1) 1).map fun passed =>
        (.ok (), counting cycles passed (some { pc := some 0 })) := by
  have sampled : (counting cycles passed none).processor.state? = some (.ok { pc := some 0 },
      (counting cycles passed (some { pc := some 0 })).processor) := rfl
  have address : quotient? 0 (max bareConfig.arch.stride 1) = some 0 := by decide
  have entries : Pending.matching countingBench.commands 0 = [⟨0, 0⟩, ⟨1, 0⟩] := by decide
  have enrolled : (counting cycles passed none).enroll? { pc := some 0 } =
      some [⟨0, 0⟩, ⟨1, 0⟩] := by
    rw [enroll?]
    dsimp only [counting]
    rw [address, Option.map_some, entries]
    rfl
  have fired : (counting cycles passed none).step? =
      fireAll? { pc := some 0 } (counting cycles passed (some { pc := some 0 })) [0, 1] := by
    rw [step?, sampled]
    dsimp only
    rw [enrolled]
    rfl
  have first := counting_fire cycles passed countingBench.commands[0] (List.getElem_mem _)
  have second := counting_fire cycles (passed + 1) countingBench.commands[1] (List.getElem_mem _)
  rw [sum?, if_pos below] at first
  rw [fired]
  show (fire? _ _ countingBench.commands[0]).bind _ = _
  rw [first]
  show (fire? _ _ countingBench.commands[1]).bind _ = _
  rw [second]
  cases sum? wordLimit (passed + 1) 1 <;> rfl

theorem counting_moves (cycles passed : Nat) (early : cycles + 2 < wordLimit) :
    (counting cycles passed (some { pc := some 0 })).moveOn? =
      some (.going (counting (cycles + 1) passed none)) := by
  have advanced : Stimulus.advance { now := cycles + 1, signals := bareSignals } 1 =
      (.ok (), { now := cycles + 2, signals := bareSignals }) := by
    rw [Stimulus.advance]
    exact if_neg (Nat.not_le.mpr early)
  have passes : (counting cycles passed (some { pc := some 0 })).processor.pass? 1 =
      some (.ok (),
        ⟨.inl { now := cycles + 2, signals := bareSignals }, bareConfig, none, cycles⟩) := by
    show ((some (Stimulus.advance { now := cycles + 1, signals := bareSignals } 1)).map
      (Prod.map id Sum.inl)).map _ = _
    rw [advanced]
    rfl
  have counted : sum? wordLimit cycles 1 = some (cycles + 1) := if_pos (by omega)
  have cycle : (counting cycles passed (some { pc := some 0 })).processor.config.timing.cycle = 1 :=
    rfl
  rw [moveOn?, Processor.runCycle?, cycle, passes]
  dsimp only
  rw [counted]
  rfl

/-- A step in front of the last one leads to the next cycle. -/
theorem counting_tick (cycles : Nat) (more : cycles + 1 < 2 ^ 63) :
    tick? none (some (2 ^ 63 - 1)) 0 (counting cycles (2 * cycles) none) =
      some (.going (counting (cycles + 1) (2 * (cycles + 1)) none)) := by
  have word : wordLimit = 2 * 2 ^ 63 := by decide
  have stepped := counting_step cycles (2 * cycles) (by omega)
  have counted : sum? wordLimit (2 * cycles + 1) 1 = some (2 * cycles + 2) := if_pos (by omega)
  have room : (some (2 ^ 63 - 1)).filter (fun limit => limit ≤ cycles) = none := by
    rw [Option.filter_some, decide_eq_false (by omega)]
    rfl
  rw [counted] at stepped
  rw [tick?]
  refine (congrArg (Option.bind · _) stepped).trans ?_
  rw [Option.map_some, Option.bind_some]
  dsimp only [counting]
  rw [difference?, if_pos (Nat.zero_le cycles), Nat.sub_zero]
  dsimp only
  rw [if_neg Bool.false_ne_true, room]
  exact counting_moves cycles (2 * (cycles + 1)) (by omega)

theorem counting_stops :
    tick? none (some (2 ^ 63 - 1)) 0 (counting (2 ^ 63 - 1) (2 * (2 ^ 63 - 1)) none) = none := by
  have stopped := counting_step (2 ^ 63 - 1) (2 * (2 ^ 63 - 1)) (by decide)
  have full : sum? wordLimit (2 * (2 ^ 63 - 1) + 1) 1 = none := by decide
  rw [full, Option.map_none] at stopped
  rw [tick?]
  exact congrArg (Option.bind · _) stopped

theorem counting_loop (fuel cycles : Nat) (inside : cycles < 2 ^ 63) :
    loop? none (some (2 ^ 63 - 1)) 0 fuel (counting cycles (2 * cycles) none) = none := by
  induction fuel generalizing cycles with
  | zero => rfl
  | succ fuel ih =>
      rw [loop?]
      rcases Nat.lt_or_ge (cycles + 1) (2 ^ 63) with more | last
      · rw [counting_tick cycles more]
        exact ih (cycles + 1) more
      · obtain rfl : cycles = 2 ^ 63 - 1 := by omega
        rw [counting_stops]
        rfl

theorem counting_cycles_fit (ran : Except RunError Nat × Session (Stimulus ⊕ Replay))
    (member : .ok ran ∈ series bareConfig.arch [] [countingTask]) :
    ran.1 ≠ .error .counterFull := by
  simp only [series, counting_parsed, List.mem_singleton, Except.ok.injEq] at member
  obtain ⟨ended, -⟩ := run_ended ⟨countingBench, countingTask.core, {}, []⟩ (2 ^ 63 - 1)
    (by decide)
  have limited : countingTask.limit = some (2 ^ 63 - 1) := rfl
  rw [member, limited]
  intro full
  rw [full] at ended
  cases ended

theorem counting_few : (Statement.ofText countingTask.text.toList).length < 2 ^ 31 := by
  decide +kernel

theorem counting_series : series? bareConfig.arch [] [countingTask] = none := by
  have settled : (countingTask.core.pass? 1) =
      some (.ok (), (counting 0 0 none).processor) := rfl
  have stops : run? (some (2 ^ 63 - 1)) ⟨countingBench, countingTask.core, {}, []⟩ = none := by
    have settle : countingTask.core.config.timing.settle = 1 := rfl
    rw [run?]
    dsimp only [reset, clear]
    rw [settle, settled]
    exact counting_loop _ 0 (by decide)
  rw [series?, Bench.parse_eq _ _ counting_few, counting_parsed, Option.bind_eq_bind,
    Option.bind_some]
  dsimp only [countingTask] at stops ⊢
  rw [stops]
  rfl

/-- More comparisons pass in this run than a word counts, though its cycles stay inside their
budget. That and nothing else stops the machine. -/
theorem counting_stops_machine :
    bareConfig.Usable ∧ countingTask.core.config = bareConfig ∧
      MachineProbe.Sound countingTask.core.probe ∧ countingTask.core.cycles < wordLimit ∧
      (Statement.ofText countingTask.text.toList).length < 2 ^ 31 ∧
      (∀ ran, .ok ran ∈ series bareConfig.arch [] [countingTask] → ran.1 ≠ .error .counterFull) ∧
      (∃ ran, .ok ran ∈ series bareConfig.arch [] [countingTask] ∧
        wordLimit ≤ ran.2.tally.passed) ∧
      series? bareConfig.arch [] [countingTask] = none := by
  have usable : bareConfig.Usable := by constructor <;> decide
  have ends := series_ends bareConfig usable [countingTask] [] (List.forall_mem_singleton.mpr rfl)
    (List.forall_mem_singleton.mpr trivial) (List.forall_mem_singleton.mpr (by decide))
    (List.forall_mem_singleton.mpr counting_few) counting_cycles_fit
  refine ⟨usable, rfl, trivial, by decide, counting_few, counting_cycles_fit, ?_, counting_series⟩
  by_contra none
  have fit : inWords (series bareConfig.arch [] [countingTask]) = true :=
    (in_words_iff _).mpr fun ran member =>
      Nat.lt_of_not_le fun full => none ⟨ran, member, full⟩
  rw [counting_series, if_pos fit] at ends
  cases ends

end Session

end CoreBench
