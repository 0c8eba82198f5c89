import CoreBench.Proofs.Sampling
import CoreBench.Proofs.Tracking

/-!
The snapshot that a processor keeps is never out of date. It is dropped whenever time passes or
the stimulus is changed from outside, and the interrupt lines, which change in between, are none
of its signals. So asking for the snapshot is as good as reading the signals again, whatever has
been asked of the processor before and whether or not that failed.
-/

namespace CoreBench

/-- The signals of a snapshot. -/
inductive Config.Samples (config : Config) : String → Prop where
  | pc : config.Samples config.wiring.pc
  | register (file : RegisterFile) (index : Nat) (present : index < config.arch.count file) :
      config.Samples (config.wiring.registerPath file index config.arch.wordSize)

theorem Config.samples_place (config : Config) (place : Nat)
    (inside : place < Processor.sampleSize config) :
    config.Samples (Processor.sampledPath config place) := by
  cases place with
  | zero => exact .pc
  | succ place =>
      rw [Processor.sampledPath]
      split
      case isTrue general => exact .register .general place general
      case isFalse special =>
        refine .register .special _ ?_
        rw [Processor.sampleSize] at inside
        rw [Arch.count]
        omega

theorem Config.samples_iff (config : Config) (path : String) :
    config.Samples path ↔
      ∃ place < Processor.sampleSize config, Processor.sampledPath config place = path := by
  constructor
  · intro sampled
    cases sampled with
    | pc => exact ⟨0, by rw [Processor.sampleSize]; omega, rfl⟩
    | register file index present =>
        exact ⟨config.arch.place file index, Processor.place_lt config file index present,
          Processor.sampled_path_place config file index present⟩
  · rintro ⟨place, inside, rfl⟩
    exact config.samples_place place inside

namespace Processor

variable {processor : Processor Stimulus}

/-- The snapshot has the numbers that the signals have at present, with their bits in the order
of the settings. -/
structure Depicts (processor : Processor Stimulus) (snapshot : Snapshot) : Prop where
  pc : ∃ lines, processor.probe.value? processor.config.wiring.pc = some lines ∧
    snapshot.pc = (processor.orient lines).toNat?
  count : ∀ file, (snapshot.registers file).length = processor.config.arch.count file
  register : ∀ file index, index < processor.config.arch.count file →
    ∃ lines, processor.probe.value?
        (processor.config.wiring.registerPath file index processor.config.arch.wordSize) =
          some lines ∧
      (snapshot.registers file)[index]? = some (processor.orient lines).toNat?

namespace Depicts

variable {snapshot other : Snapshot}

theorem declared (depicts : processor.Depicts snapshot) (path : String)
    (sampled : processor.config.Samples path) : (processor.probe.value? path).isSome := by
  cases sampled with
  | pc =>
      obtain ⟨lines, found, _⟩ := depicts.pc
      rw [found, Option.isSome_some]
  | register file index present =>
      obtain ⟨lines, found, _⟩ := depicts.register file index present
      rw [found, Option.isSome_some]

theorem unique (one : processor.Depicts snapshot) (two : processor.Depicts other) :
    snapshot = other := by
  have pc : snapshot.pc = other.pc := by
    obtain ⟨lines, found, number⟩ := one.pc
    obtain ⟨again, same, value⟩ := two.pc
    cases found.symm.trans same
    rw [number, value]
  have registers : ∀ file, snapshot.registers file = other.registers file := by
    intro file
    apply List.ext_getElem?
    intro index
    by_cases present : index < processor.config.arch.count file
    · obtain ⟨lines, found, number⟩ := one.register file index present
      obtain ⟨again, same, value⟩ := two.register file index present
      cases found.symm.trans same
      rw [number, value]
    · have absent := Nat.le_of_not_lt present
      rw [List.getElem?_eq_none (by rwa [one.count file]),
        List.getElem?_eq_none (by rwa [two.count file])]
  obtain ⟨_, general, special⟩ := snapshot
  obtain ⟨_, others, specials⟩ := other
  obtain rfl : general = others := registers .general
  obtain rfl : special = specials := registers .special
  exact congrArg (Snapshot.mk · general special) pc

/-- Other signals do not count for a snapshot. -/
theorem of_same {next : Processor Stimulus} (depicts : processor.Depicts snapshot)
    (config : next.config = processor.config)
    (same : ∀ path, processor.config.Samples path →
      next.probe.value? path = processor.probe.value? path) : next.Depicts snapshot := by
  have orient : ∀ lines, next.orient lines = processor.orient lines := by
    intro lines
    rw [Processor.orient, Processor.orient, config]
  constructor
  case pc =>
    rw [config, same _ .pc]
    simpa only [orient] using depicts.pc
  case count =>
    rw [config]
    exact depicts.count
  case register =>
    rw [config]
    intro file index present
    rw [same _ (.register file index present)]
    simpa only [orient] using depicts.register file index present

end Depicts

theorem read_from_missing (path : Nat → String) (stimulus : Stimulus) (first count : Nat)
    (values : List Bus) (place : Nat) (low : first ≤ place) (high : place < first + count)
    (missing : stimulus.value? (path place) = none) :
    ∃ earliest, earliest < first + count ∧ stimulus.value? (path earliest) = none ∧
      readFrom path first count values stimulus =
        (.error (.unknownSignal (path earliest)), stimulus) := by
  induction count generalizing first values with
  | zero => omega
  | succ count ih =>
      rw [readFrom, stimulus.read_eq]
      cases found : stimulus.value? (path first) with
      | none => exact ⟨first, by omega, found, rfl⟩
      | some lines =>
          have later : first ≠ place := by
            rintro rfl
            cases found.symm.trans missing
          obtain ⟨earliest, inside, absent, read⟩ :=
            ih (first + 1) (lines :: values) (by omega) (by omega)
          exact ⟨earliest, by omega, absent, read⟩

theorem snapshot_depicts (processor : Processor Stimulus) (bus : Nat → Bus)
    (declared : ∀ place < sampleSize processor.config,
      processor.probe.value? (sampledPath processor.config place) = some (bus place)) :
    processor.Depicts (snapshotOf processor.config
      ((List.range (sampleSize processor.config)).map fun place =>
        (processor.orient (bus place)).toNat?)) where
  pc := by
    have start : 0 < sampleSize processor.config := by
      rw [sampleSize]
      omega
    exact ⟨bus 0, declared 0 start, snapshot_of_pc processor.config _⟩
  count file := by
    cases file <;> simp only [snapshotOf, Snapshot.registers, sampleSize, Arch.count,
      List.length_take, List.length_drop, List.length_map, List.length_range] <;> omega
  register file index present := by
    have inside := place_lt processor.config file index present
    have found := declared _ inside
    rw [sampled_path_place processor.config file index present] at found
    refine ⟨_, found, ?_⟩
    rw [snapshot_of_register _ _ _ _ present, List.getElem?_map, List.getElem?_range inside,
      Option.map_some]

/-- Without a snapshot the signals are read: all of them, or one of them is missing. -/
theorem state_unsampled (processor : Processor Stimulus) (unsampled : processor.sampled = none) :
    (∃ snapshot, processor.Depicts snapshot ∧
      processor.state = (.ok snapshot, { processor with sampled := some snapshot })) ∨
    ∃ path, processor.config.Samples path ∧ processor.probe.value? path = none ∧
      processor.state = (.error (.unknownSignal path), processor) := by
  by_cases declared : ∀ place < sampleSize processor.config,
      (processor.probe.value? (sampledPath processor.config place)).isSome
  · left
    have present : ∀ place < sampleSize processor.config,
        processor.probe.value? (sampledPath processor.config place) =
          some ((processor.probe.value? (sampledPath processor.config place)).getD ⟨[]⟩) := by
      intro place inside
      obtain ⟨lines, found⟩ := Option.isSome_iff_exists.mp (declared place inside)
      rw [found, Option.getD_some]
    exact ⟨_, snapshot_depicts processor _ present, state_declared processor _ unsampled present⟩
  · right
    simp only [not_forall, Option.not_isSome_iff_eq_none] at declared
    obtain ⟨place, inside, missing⟩ := declared
    obtain ⟨earliest, within, absent, read⟩ :=
      read_from_missing (sampledPath processor.config) processor.probe 0
        (sampleSize processor.config) [] place (Nat.zero_le _) (by omega) missing
    refine ⟨_, processor.config.samples_place earliest (by omega), absent, ?_⟩
    rw [state, unsampled, read]
    dsimp only
    rw [← unsampled]

/-- The processor has no snapshot, or one of the present signals. -/
def Current (processor : Processor Stimulus) : Prop :=
  ∀ snapshot, processor.sampled = some snapshot → processor.Depicts snapshot

theorem current_of_none (unsampled : processor.sampled = none) : processor.Current := by
  intro snapshot sampled
  cases unsampled.symm.trans sampled

/-- A snapshot that is up to date is as good as reading the signals. -/
theorem state_current (current : processor.Current) :
    (∃ snapshot, processor.Depicts snapshot ∧
      processor.state = (.ok snapshot, { processor with sampled := some snapshot })) ∨
    ∃ path, processor.config.Samples path ∧ processor.probe.value? path = none ∧
      processor.state = (.error (.unknownSignal path), processor) := by
  cases sampled : processor.sampled with
  | none => exact processor.state_unsampled sampled
  | some snapshot =>
      refine .inl ⟨snapshot, current snapshot sampled, ?_⟩
      rw [state, sampled]
      dsimp only
      rw [← sampled]

theorem state_ok_iff (current : processor.Current) (snapshot : Snapshot) :
    processor.state.1 = .ok snapshot ↔ processor.Depicts snapshot := by
  rcases state_current current with ⟨shown, depicts, sampled⟩ | ⟨path, member, missing, failed⟩
  · rw [sampled]
    constructor
    · rintro ⟨⟩
      exact depicts
    · intro other
      rw [depicts.unique other]
  · rw [failed]
    constructor
    · rintro ⟨⟩
    · intro depicts
      have declared := depicts.declared path member
      rw [missing] at declared
      cases declared

theorem state_anew (current : processor.Current) :
    processor.state.1 = (processor.touch id).state.1 := by
  cases sampled : processor.sampled with
  | none =>
      have same : processor.touch id = processor := by
        rw [touch, ← sampled]
        rfl
      rw [same]
  | some snapshot =>
      have fresh : (processor.touch id).Current := current_of_none rfl
      have shown : processor.state.1 = .ok snapshot := by rw [state, sampled]
      have depicts := (state_ok_iff current snapshot).mp shown
      rw [shown]
      exact ((state_ok_iff fresh snapshot).mpr (depicts.of_same rfl fun _ _ => rfl)).symm

theorem state_missing (current : processor.Current) (path : String)
    (member : processor.config.Samples path) (missing : processor.probe.value? path = none) :
    ∃ absent, processor.config.Samples absent ∧ processor.probe.value? absent = none ∧
      processor.state.1 = .error (.unknownSignal absent) := by
  rcases state_current current with ⟨snapshot, depicts, _⟩ | ⟨absent, sampled, none, failed⟩
  · have declared := depicts.declared path member
    rw [missing] at declared
    cases declared
  · exact ⟨absent, sampled, none, congrArg Prod.fst failed⟩

/-- What can be asked of a processor, the changes of its stimulus from outside among it. -/
inductive Call where
  | state
  | settle
  | runCycle
  | waitValid (limit : Option Nat)
  | setIrqs (update : IrqUpdate)
  | touch (change : Stimulus → Stimulus)

/-- The processor after a call, which may have failed. -/
def call (processor : Processor Stimulus) : Call → Processor Stimulus
  | .state => processor.state.2
  | .settle => processor.settle.2
  | .runCycle => processor.runCycle.2
  | .waitValid limit => (processor.waitValid limit).2
  | .setIrqs update => (processor.setIrqs update).2
  | .touch change => processor.touch change

def callAll (processor : Processor Stimulus) (calls : List Call) : Processor Stimulus :=
  calls.foldl call processor

/-- The processor has the same settings as another one, and its snapshot is up to date. -/
structure Keeps (processor next : Processor Stimulus) : Prop where
  config : next.config = processor.config
  current : next.Current

theorem pass_keeps (processor : Processor Stimulus) (units : Nat) :
    processor.Keeps (processor.pass units).2 :=
  ⟨rfl, current_of_none rfl⟩

theorem run_cycle_keeps (processor : Processor Stimulus) : processor.Keeps processor.runCycle.2 := by
  rw [runCycle, pass]
  cases Probe.advance processor.probe processor.config.timing.cycle with
  | mk result probe => cases result <;> exact ⟨rfl, current_of_none rfl⟩

theorem strobe_same (processor : Processor Stimulus) (path? : Option String) :
    processor.strobe path? = ((processor.strobe path?).1, processor) := by
  cases path? with
  | none => rfl
  | some path =>
      rw [strobe, Stimulus.read_eq]
      cases processor.probe.value? path <;> rfl

/-- Waiting runs cycles or leaves the processor as it is. -/
theorem wait_for_keeps (path? : Option String) (limit : Option Nat) (fuel : Nat)
    (current : processor.Current) : processor.Keeps (waitFor path? limit fuel processor).2 := by
  induction fuel generalizing processor with
  | zero => exact ⟨rfl, current⟩
  | succ fuel ih =>
      -- On the fuel: each cycle that is run drops the snapshot, so the rest starts without one.
      rw [waitFor, strobe_same]
      cases (processor.strobe path?).1 with
      | error error => exact ⟨rfl, current⟩
      | ok valid =>
          cases valid with
          | true => exact ⟨rfl, current⟩
          | false =>
              dsimp only
              split
              · exact ⟨rfl, current⟩
              · have cycled := processor.run_cycle_keeps
                cases ran : processor.runCycle with
                | mk result next =>
                    rw [ran] at cycled
                    cases result with
                    | error error => exact cycled
                    | ok done =>
                        have waited := ih cycled.current
                        exact ⟨waited.config.trans cycled.config, waited.current⟩

/-- The interrupt lines are none of the signals of the snapshot. -/
theorem set_irqs_keeps (update : IrqUpdate)
    (apart : ¬ processor.config.Samples processor.config.wiring.irq)
    (current : processor.Current) : processor.Keeps (processor.setIrqs update).2 := by
  -- Driving changes the value of one path only, and a snapshot does not depend on that path.
  cases lines : processor.probe.value? processor.config.wiring.irq with
  | none =>
      rw [set_irqs_unknown update lines]
      exact ⟨rfl, current⟩
  | some before =>
      rw [set_irqs_declared update lines]
      refine ⟨rfl, ?_⟩
      intro snapshot sampled
      refine (current snapshot sampled).of_same rfl ?_
      intro path member
      rw [drove_value]
      apply if_neg
      rintro rfl
      exact apart member

theorem call_keeps (call : Call) (apart : ¬ processor.config.Samples processor.config.wiring.irq)
    (current : processor.Current) : processor.Keeps (processor.call call) := by
  cases call with
  | state =>
      rw [Processor.call]
      rcases state_current current with ⟨snapshot, depicts, sampled⟩ | ⟨path, _, _, failed⟩
      · rw [sampled]
        refine ⟨rfl, ?_⟩
        rintro other ⟨⟩
        exact depicts.of_same rfl fun _ _ => rfl
      · rw [failed]
        exact ⟨rfl, current⟩
  | settle => exact processor.pass_keeps processor.config.timing.settle
  | runCycle => exact processor.run_cycle_keeps
  | waitValid limit => exact wait_for_keeps _ limit _ current
  | setIrqs update => exact set_irqs_keeps update apart current
  | touch change => exact ⟨rfl, current_of_none rfl⟩

theorem call_all_keeps (calls : List Call)
    (apart : ¬ processor.config.Samples processor.config.wiring.irq)
    (current : processor.Current) : processor.Keeps (processor.callAll calls) := by
  induction calls generalizing processor with
  | nil => exact ⟨rfl, current⟩
  | cons call calls ih =>
      have once := call_keeps call apart current
      rw [← once.config] at apart
      have rest := ih apart once.current
      exact ⟨rest.config.trans once.config, rest.current⟩

/-- Whatever has been asked of a processor before, its snapshot is what reading the signals
would give now, and there is none if one of the signals is missing. -/
theorem state_never_stale (config : Config) (stimulus : Stimulus) (calls : List Call)
    (apart : ¬ config.Samples config.wiring.irq) :
    let processor := callAll { probe := stimulus, config } calls
    processor.state.1 = (processor.touch id).state.1 ∧
      (∀ snapshot, processor.state.1 = .ok snapshot ↔ processor.Depicts snapshot) ∧
      ∀ path, config.Samples path → processor.probe.value? path = none →
        ∃ missing, config.Samples missing ∧ processor.probe.value? missing = none ∧
          processor.state.1 = .error (.unknownSignal missing) := by
  intro processor
  have kept : Keeps { probe := stimulus, config } processor :=
    call_all_keeps calls apart (current_of_none rfl)
  have config : processor.config = config := kept.config
  refine ⟨state_anew kept.current, state_ok_iff kept.current, ?_⟩
  rw [← config]
  exact state_missing kept.current

/-- A core whose program counter moves on in the first cycle. -/
def movingCore : Processor Stimulus where
  probe :=
    { signals := [("pc", Bus.ofNat 8 8), ("r0", Bus.ofNat 1 8), ("irq", Bus.ofNat 0 8)]
      pending := [⟨10, "pc", Bus.ofNat 12 8⟩]
      ordered := List.pairwise_singleton _ _ }
  config :=
    { arch := { generalCount := 1, specialCount := 0 }
      wiring :=
        { pc := "pc", general := "r\x7bindex\x7d", irq := "irq", strobe := none, reversed := false } }

/-- A change of the interrupt lines keeps the snapshot and a cycle drops it. Without signals a
cycle passes as well, and the snapshot of before is not served again. -/
theorem moving_core_never_stale :
    let apart := ¬ movingCore.config.Samples movingCore.config.wiring.irq
    let driven := movingCore.callAll [.state, .setIrqs ⟨1, 1⟩]
    let moved := movingCore.callAll [.state, .setIrqs ⟨1, 1⟩, .runCycle]
    let bare := movingCore.callAll [.state, .touch fun _ => {}, .runCycle]
    apart ∧ driven.sampled = some ⟨some 8, [some 1], []⟩ ∧
      driven.Depicts ⟨some 8, [some 1], []⟩ ∧ moved.Depicts ⟨some 12, [some 1], []⟩ ∧
      ∃ missing, movingCore.config.Samples missing ∧ bare.probe.value? missing = none ∧
        bare.state.1 = .error (.unknownSignal missing) := by
  intro apart driven moved bare
  have unshared : apart := by
    intro sampled
    obtain ⟨place, inside, same⟩ := (movingCore.config.samples_iff _).mp sampled
    have others : ∀ place < sampleSize movingCore.config,
        sampledPath movingCore.config place ≠ movingCore.config.wiring.irq := by
      decide +kernel
    exact others place inside same
  have never := state_never_stale movingCore.config movingCore.probe
  obtain ⟨_, first, _⟩ := never [.state, .setIrqs ⟨1, 1⟩] unshared
  obtain ⟨_, later, _⟩ := never [.state, .setIrqs ⟨1, 1⟩, .runCycle] unshared
  obtain ⟨_, _, absent⟩ := never [.state, .touch fun _ => {}, .runCycle] unshared
  exact ⟨unshared, rfl, (first _).mp rfl, (later _).mp rfl, absent _ .pc rfl⟩

end Processor

end CoreBench
