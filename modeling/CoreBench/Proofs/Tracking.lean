import CoreBench.Proofs.Forecast
import CoreBench.Proofs.Interrupts

/-!
A run on a stimulus does what the forecast says. The processor is followed cycle by
cycle: outside of the interrupt lines its signals are those of the schedule, and the
interrupt lines are those of the schedule and of what has been driven. From this the
steps of the run, its end and what it drives follow by induction on the cycles.
-/

namespace CoreBench

theorem Bus.sum_pos_iff (levels : List Level) : 0 < Bus.sum levels ↔ Level.high ∈ levels := by
  induction levels with
  | nil => simp [Bus.sum]
  | cons level rest ih =>
      by_cases high : level = .high
      · simp [Bus.sum, high]
      · simp [Bus.sum, high, Ne.symm high, ← ih]

namespace Processor

/-- Reading declared signals of a stimulus gives their values and changes nothing. -/
theorem read_from_declared (path : Nat → String) (bus : Nat → Bus) (stimulus : Stimulus)
    (first count : Nat) (values : List Bus)
    (declared : ∀ place, first ≤ place → place < first + count →
      stimulus.value? (path place) = some (bus place)) :
    readFrom path first count values stimulus =
      (.ok (values.reverse ++ (List.range' first count).map bus), stimulus) := by
  induction count generalizing first values with
  | zero => simp [readFrom]
  | succ count ih =>
      have here := stimulus.read_declared _ _ (declared first (by omega) (by omega))
      have rest := ih (first + 1) (bus first :: values)
        (fun place low high => declared place (by omega) (by omega))
      rw [readFrom, here]
      simp only [rest, List.range'_succ, List.map_cons, List.reverse_cons, List.append_assoc,
        List.singleton_append]

theorem state_declared (processor : Processor Stimulus) (bus : Nat → Bus)
    (unsampled : processor.sampled = none)
    (declared : ∀ place < sampleSize processor.config,
      processor.probe.value? (sampledPath processor.config place) = some (bus place)) :
    let snapshot := snapshotOf processor.config
      ((List.range (sampleSize processor.config)).map fun place =>
        (processor.orient (bus place)).toNat?)
    processor.state = (.ok snapshot, { processor with sampled := some snapshot }) := by
  have read := read_from_declared (sampledPath processor.config) bus processor.probe 0
    (sampleSize processor.config) [] (fun place _ bound => declared place (by omega))
  rw [state, unsampled]
  simp only [read, List.reverse_nil, List.nil_append, List.map_map, ← List.range_eq_range']
  rfl

theorem snapshot_of_pc (config : Config) (value : Nat → Option Nat) :
    (snapshotOf config ((List.range (sampleSize config)).map value)).pc = value 0 := by
  have size : sampleSize config = (config.arch.generalCount + config.arch.specialCount) + 1 := by
    rw [sampleSize]
    omega
  rw [snapshotOf, size, List.range_succ_eq_map, List.map_cons, List.head?_cons, Option.join_some]

end Processor

namespace Forecast

/-- A stimulus on which a run up to a limit can be foreseen: all signals that the run
reads or drives are declared, the interrupt lines are none of those that it reads
otherwise, and the times of the cycles fit into 64 bits. -/
structure Admits (forecast : Forecast) (limit : Nat) : Prop where
  usable : forecast.config.Usable
  sampled : ∀ place < Processor.sampleSize forecast.config,
    (forecast.stimulus.value? (Processor.sampledPath forecast.config place)).isSome
  strobe : ∀ path, forecast.config.wiring.strobePath? = some path →
    (forecast.stimulus.value? path).isSome
  irq : (forecast.stimulus.value? forecast.config.wiring.irq).isSome
  sampled_apart : ∀ place < Processor.sampleSize forecast.config,
    Processor.sampledPath forecast.config place ≠ forecast.config.wiring.irq
  strobe_apart : ∀ path, forecast.config.wiring.strobePath? = some path →
    path ≠ forecast.config.wiring.irq
  fits : forecast.time limit < wordLimit

/-- The processor in a cycle, after some values were driven on the interrupt lines. -/
structure Tracks (forecast : Forecast) (cycle : Nat) (driven : List Change)
    (processor : Processor Stimulus) : Prop where
  config : processor.config = forecast.config
  cycles : processor.cycles = cycle
  now : processor.probe.now = forecast.time cycle
  later : ∀ path interval, processor.probe.changed? path interval =
    forecast.stimulus.changed? path fun time => forecast.time cycle < time && interval time
  signals : ∀ path ≠ forecast.config.wiring.irq,
    processor.probe.value? path = forecast.value? path cycle
  lines : processor.probe.value? forecast.config.wiring.irq =
    forecast.lines? driven (forecast.time cycle)
  past : ∀ write ∈ driven, write.time ≤ forecast.time cycle
  writes : processor.probe.writes = forecast.stimulus.writes ++ driven

variable {forecast : Forecast} {cycle limit : Nat} {driven : List Change}
  {processor : Processor Stimulus}

theorem time_mono (forecast : Forecast) {early late : Nat} (order : early ≤ late) :
    forecast.time early ≤ forecast.time late := by
  have := Nat.mul_le_mul_right forecast.config.timing.cycle order
  rw [time, time]
  omega

theorem lines_later (forecast : Forecast) (driven : List Change) (early late : Nat)
    (order : early ≤ late) (past : ∀ write ∈ driven, write.time ≤ early) :
    forecast.lines? driven late =
      (forecast.stimulus.changed? forecast.config.wiring.irq fun time =>
        early < time && time ≤ late).or (forecast.lines? driven early) := by
  cases last : driven.getLast? with
  | none => simp only [lines?, last, forecast.stimulus.scheduled_later _ early late order]
  | some write =>
      have passed := past write (List.mem_of_getLast? last)
      -- The last drive lies before `early`, so the time since it falls into two intervals.
      have split := forecast.stimulus.changed_or forecast.config.wiring.irq
        (fun time => write.time < time && time ≤ early)
        (fun time => early < time && time ≤ late) early (by simp) (by simp; omega)
      have cover : (fun time : Nat => decide (write.time < time) && decide (time ≤ late)) =
          fun time => (decide (write.time < time) && decide (time ≤ early)) ||
            (decide (early < time) && decide (time ≤ late)) := by
        funext time
        simp only [← Bool.decide_and, ← Bool.decide_or, decide_eq_decide]
        omega
      simp only [lines?, last]
      rw [cover, split, Option.or_assoc]

theorem lines_declared (admits : forecast.Admits limit) (driven : List Change) (time : Nat) :
    (forecast.lines? driven time).isSome := by
  cases last : driven.getLast? with
  | none =>
      simp only [lines?, last]
      exact forecast.stimulus.scheduled_declared _ _ admits.irq
  | some write => simp [lines?, last]

theorem tracks_settle (forecast : Forecast) (fits : forecast.time 0 < wordLimit) :
    ∃ next, Processor.settle { probe := forecast.stimulus, config := forecast.config } =
        (.ok (), next) ∧
      forecast.Tracks 0 [] next ∧ next.sampled = none := by
  have start : forecast.time 0 = forecast.stimulus.now + forecast.config.timing.settle := by
    rw [time, Nat.zero_mul, Nat.add_zero]
  rw [start] at fits
  refine ⟨{
    probe := forecast.stimulus.advanced forecast.config.timing.settle
    config := forecast.config }, ?_, ?_, rfl⟩
  · simp only [Processor.settle, Processor.pass, Stimulus.advance_ok _ _ fits]
  · constructor
    case config => rfl
    case cycles => rfl
    case now => exact start.symm
    case later =>
      intro path interval
      rw [start]
      exact Stimulus.advanced_changed _ _ path interval
    case signals =>
      intro path _
      rw [value?, start]
      exact Stimulus.advanced_value _ _ path
    case lines =>
      rw [start]
      exact Stimulus.advanced_value _ _ _
    case past => simp
    case writes => exact (List.append_nil _).symm

theorem tracks_run_cycle (tracks : forecast.Tracks cycle driven processor)
    (fits : forecast.time (cycle + 1) < wordLimit) :
    ∃ next, processor.runCycle = (.ok (), next) ∧
      forecast.Tracks (cycle + 1) driven next ∧ next.sampled = none := by
  have next := forecast.time_succ cycle
  have order : forecast.time cycle ≤ forecast.time (cycle + 1) := by omega
  have now : processor.probe.now + processor.config.timing.cycle = forecast.time (cycle + 1) := by
    rw [tracks.now, tracks.config, next]
  have value : ∀ path, (processor.probe.advanced processor.config.timing.cycle).value? path =
      (forecast.stimulus.changed? path fun time =>
        forecast.time cycle < time && time ≤ forecast.time (cycle + 1)).or
          (processor.probe.value? path) := by
    intro path
    rw [Stimulus.advanced_value, now, Stimulus.scheduled?, tracks.later]
  refine ⟨{ processor with
    probe := processor.probe.advanced processor.config.timing.cycle
    sampled := none
    cycles := processor.cycles + 1 }, ?_, ?_, rfl⟩
  · simp only [Processor.runCycle, Processor.pass,
      Stimulus.advance_ok processor.probe processor.config.timing.cycle (by omega)]
  · constructor
    case config => exact tracks.config
    case cycles => rw [tracks.cycles]
    case now => exact now
    case later =>
      intro path interval
      rw [Stimulus.advanced_changed, tracks.later, now]
      congr 1
      funext time
      -- A change after the next cycle is also one after this cycle.
      by_cases late : forecast.time (cycle + 1) < time
      · have : forecast.time cycle < time := by omega
        simp [late, this]
      · simp [late]
    case signals =>
      intro path other
      rw [value, tracks.signals path other, value?, value?,
        forecast.stimulus.scheduled_later path _ _ order]
    case lines =>
      rw [value, tracks.lines, forecast.lines_later driven _ _ order tracks.past]
    case past =>
      intro write member
      have := tracks.past write member
      omega
    case writes => exact tracks.writes

theorem tracks_strobe (tracks : forecast.Tracks cycle driven processor)
    (admits : forecast.Admits limit) :
    processor.strobe forecast.config.wiring.strobePath? = (.ok (forecast.valid cycle), processor) := by
  cases configured : forecast.config.wiring.strobePath? with
  | none => simp only [Processor.strobe, valid, configured]
  | some path =>
      obtain ⟨value, found⟩ := Option.isSome_iff_exists.mp
        (forecast.stimulus.scheduled_declared path (forecast.time cycle)
          (admits.strobe path configured))
      have present : processor.probe.value? path = some value := by
        rw [tracks.signals path (admits.strobe_apart path configured), value?, found]
      have high : decide (0 < value.driven) = (value.levels.take 64).contains .high := by
        rw [Bus.driven, Bool.eq_iff_iff, decide_eq_true_eq, Bus.sum_pos_iff, List.contains_iff_mem]
      simp only [Processor.strobe, Stimulus.read_declared _ _ _ present, valid, configured, value?,
        found, Option.any_some, high]

theorem tracks_set_irqs (tracks : forecast.Tracks cycle driven processor)
    (admits : forecast.Admits limit) (update : IrqUpdate) :
    ∃ next, processor.setIrqs update = (.ok (), next) ∧
      forecast.Tracks cycle (forecast.drive driven (forecast.time cycle, update)) next := by
  obtain ⟨current, found⟩ := Option.isSome_iff_exists.mp
    (lines_declared admits driven (forecast.time cycle))
  have present : processor.probe.value? processor.config.wiring.irq = some current := by
    rw [tracks.config, tracks.lines, found]
  have next : forecast.drive driven (forecast.time cycle, update) =
      driven ++ [⟨forecast.time cycle, forecast.config.wiring.irq,
        processor.redriven update current⟩] := by
    simp only [drive, found, Option.getD_some, Processor.redriven, Processor.orient,
      tracks.config, Forecast.orient]
  rw [next]
  refine ⟨_, Processor.set_irqs_declared update present, ?_⟩
  constructor
  case config => exact tracks.config
  case cycles => exact tracks.cycles
  case now => exact tracks.now
  case later => exact tracks.later
  case signals =>
    intro path other
    rw [Processor.drove_value, tracks.config, if_neg (Ne.symm other)]
    exact tracks.signals path other
  case lines =>
    rw [Processor.drove_value, tracks.config, if_pos rfl]
    simp only [lines?, List.getLast?_append, List.getLast?_singleton, Option.some_or]
    -- No time lies after the drive and not after it.
    rw [Stimulus.changed_never _ _ _ (by simp), Option.none_or]
  case past =>
    intro write member
    rcases List.mem_append.mp member with old | new
    · exact tracks.past write old
    · rw [List.mem_singleton.mp new]
  case writes =>
    simp only [Processor.drove, Stimulus.wrote, tracks.writes, tracks.now, tracks.config,
      List.append_assoc]

theorem tracks_state (tracks : forecast.Tracks cycle driven processor)
    (admits : forecast.Admits limit) (unsampled : processor.sampled = none) :
    ∃ snapshot next, processor.state = (.ok snapshot, next) ∧
      forecast.Tracks cycle driven next ∧
      snapshot.address? forecast.config.arch.stride = forecast.address? cycle := by
  let bus := fun place =>
    (forecast.value? (Processor.sampledPath forecast.config place) cycle).getD ⟨[]⟩
  have found : ∀ place < Processor.sampleSize forecast.config,
      forecast.value? (Processor.sampledPath forecast.config place) cycle = some (bus place) := by
    intro place bound
    obtain ⟨value, present⟩ := Option.isSome_iff_exists.mp
      (forecast.stimulus.scheduled_declared _ (forecast.time cycle) (admits.sampled place bound))
    simp only [bus, value?, present, Option.getD_some]
  have state := processor.state_declared bus unsampled (by
    intro place bound
    rw [tracks.config] at bound ⊢
    rw [tracks.signals _ (admits.sampled_apart place bound), found place bound])
  refine ⟨_, _, state, ?_, ?_⟩
  · exact ⟨tracks.config, tracks.cycles, tracks.now, tracks.later, tracks.signals, tracks.lines,
      tracks.past, tracks.writes⟩
  · have pc := found 0 (by rw [Processor.sampleSize]; omega)
    have orient : processor.orient (bus 0) = forecast.orient (bus 0) := by
      rw [Processor.orient, tracks.config, Forecast.orient]
    rw [Processor.sampledPath] at pc
    rw [Snapshot.address?, Processor.snapshot_of_pc, address?, pc, Option.bind_some, orient]

theorem check_passed_or_failed (command : Command) (comparison : Comparison)
    (snapshot : Snapshot) (arch : Arch) :
    command.check comparison snapshot arch = .passed ∨
      ∃ message, command.check comparison snapshot arch = .failed message := by
  rw [Command.check]
  split
  · exact .inr ⟨_, rfl⟩
  · split
    · exact .inl rfl
    · exact .inr ⟨_, rfl⟩

/-- Commands fire without an error; the interrupts among them drive what is foreseen,
and the tally is complete as soon as one of them is an end directive. -/
theorem tracks_fires (admits : forecast.Admits limit) (snapshot : Snapshot)
    (entries : List Enrollment) (session : Session Stimulus) (driven : List Change)
    (tracks : forecast.Tracks cycle driven session.processor) :
    ∃ after, Session.Fires snapshot session (entries.map Enrollment.command) after ∧
      forecast.Tracks cycle
        (((updates entries).map (Prod.mk (forecast.time cycle))).foldl forecast.drive driven)
        after.processor ∧
      (after.tally.complete = true ↔
        session.tally.complete = true ∨ ∃ entry ∈ entries, entry.command.action = .finish) := by
  -- On the commands that fire; only interrupts touch the core, only ends the tally.
  induction entries generalizing session driven with
  | nil => exact ⟨session, .done session, tracks, by simp⟩
  | cons entry rest ih =>
      cases action : entry.command.action with
      | finish =>
          have fired : session.fire snapshot entry.command =
              (.ok (), { session with tally := session.tally.record .finished }) := by
            simp only [Session.fire, Command.execute, action]
          obtain ⟨after, fires, tracks, complete⟩ :=
            ih { session with tally := session.tally.record .finished } driven tracks
          refine ⟨after, .next fired fires, ?_, ?_⟩
          · simpa only [updates, List.filterMap_cons, action] using tracks
          · simp [complete, action, Tally.record]
      | interrupt update =>
          obtain ⟨next, set, tracks⟩ := tracks_set_irqs tracks admits update
          have fired : session.fire snapshot entry.command =
              (.ok (), { session with processor := next }) := by
            simp only [Session.fire, Command.execute, action, set]
          obtain ⟨after, fires, tracks, complete⟩ := ih { session with processor := next } _ tracks
          refine ⟨after, .next fired fires, ?_, ?_⟩
          · simpa only [updates, List.filterMap_cons, action, List.map_cons, List.foldl_cons]
              using tracks
          · simp [complete, action]
      | compare comparison =>
          have fired : ∃ tally, session.fire snapshot entry.command =
              (.ok (), { session with tally }) ∧ tally.complete = session.tally.complete := by
            rcases check_passed_or_failed entry.command comparison snapshot
              session.processor.config.arch with passed | ⟨message, failed⟩
            · refine ⟨session.tally.record .passed, ?_, rfl⟩
              simp only [Session.fire, Command.execute, action, passed]
            · refine ⟨session.tally.record (.failed message), ?_, rfl⟩
              simp only [Session.fire, Command.execute, action, failed]
          obtain ⟨tally, fired, same⟩ := fired
          obtain ⟨after, fires, tracks, complete⟩ := ih { session with tally } driven tracks
          refine ⟨after, .next fired fires, ?_, ?_⟩
          · simpa only [updates, List.filterMap_cons, action] using tracks
          · simp [complete, action, same]

/-- A session in a cycle, after steps in the given cycles that have not ended it. -/
structure Through (forecast : Forecast) (cycle : Nat) (steps : List Nat)
    (session : Session Stimulus) : Prop where
  bench : session.bench = forecast.bench
  tracks : forecast.Tracks cycle (forecast.writes steps) session.processor
  queue : session.queue = Enrollment.queue (forecast.entries steps) steps.length
  going : session.tally.complete = false

/-- A session in front of the step of a cycle. -/
structure At (forecast : Forecast) (cycle : Nat) (steps : List Nat)
    (session : Session Stimulus) : Prop extends forecast.Through cycle steps session where
  unsampled : session.processor.sampled = none

theorem at_step (admits : forecast.Admits limit) (steps : List Nat) (session : Session Stimulus)
    (here : forecast.At cycle steps session) :
    ∃ after, session.step = (.ok (), after) ∧ after.bench = forecast.bench ∧
      forecast.Tracks cycle (forecast.writes (steps ++ [cycle])) after.processor ∧
      after.queue = Enrollment.queue (forecast.entries (steps ++ [cycle])) (steps.length + 1) ∧
      (after.tally.complete = true ↔ forecast.Ends (steps ++ [cycle]) steps.length) := by
  obtain ⟨snapshot, processor, sampled, tracks, located⟩ :=
    tracks_state here.tracks admits here.unsampled
  -- The address that the step observes is the foreseen one, so the timetable applies.
  have address : session.address? = forecast.address? cycle := by
    rw [Session.address?, sampled, here.tracks.config, ← located]
  have entries : Enrollment.ofSteps session.bench.commands
      (steps.map forecast.address? ++ [session.address?]) =
        forecast.entries (steps ++ [cycle]) := by
    rw [here.bench, address, entries_append]
  have size : (steps.map forecast.address?).length = steps.length := List.length_map _
  have waiting : session.queue =
      Enrollment.queue (Enrollment.ofSteps session.bench.commands (steps.map forecast.address?))
        (steps.map forecast.address?).length := by
    rw [size, here.bench, here.queue, Forecast.entries]
  obtain ⟨after, fires, tracks, complete⟩ := tracks_fires admits snapshot
    (Enrollment.firing (forecast.entries (steps ++ [cycle])) steps.length)
    { session with
      processor
      queue := Enrollment.queue (forecast.entries (steps ++ [cycle])) (steps.length + 1) }
    (forecast.writes steps) tracks
  refine ⟨after, ?_, fires.bench.trans here.bench, ?_, fires.queue, ?_⟩
  · apply (Session.step_ok_iff session after _ snapshot processor sampled waiting).mpr
    rw [entries, size]
    exact fires
  · rw [writes_append]
    exact tracks
  · rw [complete, here.going, ends_iff_firing]
    simp

end Forecast

end CoreBench
