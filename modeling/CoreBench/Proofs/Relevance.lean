import CoreBench.Proofs.Lockstep
import CoreBench.Proofs.Sampling
import CoreBench.Proofs.Tracking

/-!
Which signals matter to a run. All registers are sampled in every step, but a run looks at
the program counter, the strobe, the interrupt lines and the registers that its comparisons
name, and at nothing else. Two stimuli that agree on those signals cannot be told apart by
running the bench.
-/

namespace CoreBench

/-- An operand of a comparison of the bench. -/
def Bench.Mentions (bench : Bench) (operand : Operand) : Prop :=
  ∃ command ∈ bench.commands, ∃ comparison, command.action = .compare comparison ∧
    (operand = comparison.left ∨ operand = comparison.right)

/-- The paths of the signals that a run of the bench can depend on. -/
inductive Config.Relevant (config : Config) (bench : Bench) : String → Prop where
  | pc : Relevant config bench config.wiring.pc
  | strobe (path : String) (configured : config.wiring.strobePath? = some path) :
      Relevant config bench path
  | irq : Relevant config bench config.wiring.irq
  | register (file : RegisterFile) (slice : Slice)
      (mentioned : bench.Mentions (.register file slice)) :
      Relevant config bench (config.wiring.registerPath file slice.index config.arch.wordSize)

namespace Stimulus

/-- Two stimuli at the same time with the same values and the same schedule for some
signals. -/
structure AgreeOn (paths : String → Prop) (one other : Stimulus) : Prop where
  now : one.now = other.now
  value : ∀ path, paths path → one.value? path = other.value? path
  pending : ∀ path, paths path →
    (one.pending.filter fun change => change.path = path) =
      other.pending.filter fun change => change.path = path

variable {paths : String → Prop} {one other : Stimulus}

theorem AgreeOn.changed (agree : AgreeOn paths one other) (path : String) (relevant : paths path)
    (interval : Nat → Bool) : one.changed? path interval = other.changed? path interval := by
  rw [changed_own, changed_own, agree.pending path relevant]

theorem AgreeOn.advanced (agree : AgreeOn paths one other) (units : Nat) :
    AgreeOn paths (one.advanced units) (other.advanced units) where
  now := congrArg (· + units) agree.now
  value path relevant := by
    rw [advanced_value, advanced_value, scheduled?, scheduled?, agree.changed path relevant,
      agree.value path relevant, agree.now]
  pending path relevant := by
    have commuted : ∀ stimulus : Stimulus,
        ((stimulus.advanced units).pending.filter fun change => change.path = path) =
          (stimulus.pending.filter fun change => change.path = path).filter
            fun change => stimulus.now + units < change.time := by
      intro stimulus
      rw [Stimulus.advanced, List.filter_filter, List.filter_filter]
      apply List.filter_congr
      intro change _
      exact Bool.and_comm _ _
    rw [commuted, commuted, agree.pending path relevant, agree.now]

theorem AgreeOn.wrote (agree : AgreeOn paths one other) (path : String) (value : Bus) :
    AgreeOn paths (one.wrote path value) (other.wrote path value) where
  now := agree.now
  value place relevant := by rw [wrote_value, wrote_value, agree.value place relevant]
  pending := agree.pending

end Stimulus

namespace Processor

/-- A register in a snapshot has the value at its place in the sample, and a register that
the core does not have is not in it. -/
theorem snapshot_of_range (config : Config) (value : Nat → Option Nat) (file : RegisterFile)
    (index : Nat) :
    ((snapshotOf config ((List.range (sampleSize config)).map value)).registers file)[index]? =
      if index < config.arch.count file then some (value (config.arch.place file index))
      else none := by
  by_cases present : index < config.arch.count file
  · have inside := place_lt config file index present
    rw [if_pos present, snapshot_of_register _ _ _ _ present, List.getElem?_map,
      List.getElem?_range inside, Option.map_some]
  · rw [if_neg present, List.getElem?_eq_none_iff]
    cases file <;> simp only [Arch.count] at present <;>
      simp only [snapshotOf, Snapshot.registers, List.length_take, List.length_drop,
        List.length_map, List.length_range, sampleSize] <;> omega

end Processor

variable {config : Config} {bench : Bench}

/-- Operands of the bench have the same value in two samples that agree where it matters. -/
theorem Operand.evaluate_agree (value value' : Nat → Option Nat)
    (same : ∀ place < Processor.sampleSize config,
      config.Relevant bench (Processor.sampledPath config place) → value place = value' place)
    (operand : Operand) (mentioned : bench.Mentions operand) :
    operand.evaluate (Processor.snapshotOf config
        ((List.range (Processor.sampleSize config)).map value)) =
      operand.evaluate (Processor.snapshotOf config
        ((List.range (Processor.sampleSize config)).map value')) := by
  cases operand with
  | constant number => rfl
  | programCounter =>
      have first := same 0 (by rw [Processor.sampleSize]; omega) .pc
      simp only [evaluate, Processor.snapshot_of_pc, first]
  | register file slice =>
      simp only [evaluate, Processor.snapshot_of_range]
      by_cases present : slice.index < config.arch.count file
      · have path := Processor.sampled_path_place config file slice.index present
        have here := same _ (Processor.place_lt config file slice.index present)
          (path ▸ .register file slice mentioned)
        simp only [present, ↓reduceIte, here]
      · simp only [present, ↓reduceIte]

namespace Processor

/-- Two cores whose probes agree on the relevant signals. Both have all signals that are
sampled, and both have recorded the same since their records were `before` and `before'`. -/
structure Blind (config : Config) (bench : Bench) (before before' : List Change)
    (one other : Processor Stimulus) : Prop where
  config_left : one.config = config
  config_right : other.config = config
  cycles : one.cycles = other.cycles
  agree : Stimulus.AgreeOn (config.Relevant bench) one.probe other.probe
  declared : ∀ place < sampleSize config, (one.probe.value? (sampledPath config place)).isSome
  declared' : ∀ place < sampleSize config, (other.probe.value? (sampledPath config place)).isSome
  writes : ∃ added, one.probe.writes = before ++ added ∧ other.probe.writes = before' ++ added

/-- Besides, the snapshots are both out of date, or the commands cannot tell them apart. -/
structure Blurred (config : Config) (bench : Bench) (before before' : List Change)
    (one other : Processor Stimulus) : Prop extends
    Blind config bench before before' one other where
  sampled : Option.Rel (Snapshot.Agree bench.commands) one.sampled other.sampled

variable {before before' : List Change} {one other : Processor Stimulus}

theorem Blind.pass_meets (blind : Blind config bench before before' one other) (units : Nat) :
    Meets (fun _ => False) (fun _ => False) Eq (Blurred config bench before before')
      (one.pass units) (other.pass units) := by
  rw [pass, pass]
  -- Both are at the same time, so it is used up on both or on none.
  by_cases full : wordLimit ≤ one.probe.now + units
  · rw [Stimulus.advance_full _ _ full,
      Stimulus.advance_full _ _ (by rw [← blind.agree.now]; exact full)]
    exact .error _ { blind with sampled := .none }
  · have full' : ¬ wordLimit ≤ other.probe.now + units := by rwa [← blind.agree.now]
    rw [Stimulus.advance_ok _ _ (Nat.lt_of_not_le full),
      Stimulus.advance_ok _ _ (Nat.lt_of_not_le full')]
    have still : ∀ stimulus : Stimulus, ∀ path, (stimulus.value? path).isSome →
        ((stimulus.advanced units).value? path).isSome := by
      intro stimulus path present
      rw [Stimulus.advanced_value]
      exact stimulus.scheduled_declared _ _ present
    exact .ok rfl
      { blind with
        agree := blind.agree.advanced units
        declared := fun place bound => still _ _ (blind.declared place bound)
        declared' := fun place bound => still _ _ (blind.declared' place bound)
        sampled := .none }

/-- A sample of declared signals, by their values. -/
theorem state_values (processor : Processor Stimulus) (configured : processor.config = config)
    (unsampled : processor.sampled = none)
    (declared : ∀ place < sampleSize config,
      (processor.probe.value? (sampledPath config place)).isSome) :
    let snapshot := snapshotOf config ((List.range (sampleSize config)).map fun place =>
      (processor.orient ((processor.probe.value? (sampledPath config place)).getD ⟨[]⟩)).toNat?)
    processor.state = (.ok snapshot, { processor with sampled := some snapshot }) := by
  subst configured
  apply processor.state_declared _ unsampled
  intro place bound
  obtain ⟨value, found⟩ := Option.isSome_iff_exists.mp (declared place bound)
  rw [found, Option.getD_some]

theorem Blurred.state_meets (blurred : Blurred config bench before before' one other) :
    Meets (fun _ => False) (fun _ => False) (Snapshot.Agree bench.commands)
      (Blurred config bench before before') one.state other.state := by
  have sampled := blurred.sampled
  generalize left : one.sampled = snapshot? at sampled
  generalize right : other.sampled = snapshot?' at sampled
  cases sampled with
  | some agree =>
      rw [state, state, left, right]
      exact .ok agree blurred
  | none =>
      -- The samples may differ, but at no place that the commands look at.
      have same : ∀ place < sampleSize config, config.Relevant bench (sampledPath config place) →
          (one.orient ((one.probe.value? (sampledPath config place)).getD ⟨[]⟩)).toNat? =
            (other.orient ((other.probe.value? (sampledPath config place)).getD ⟨[]⟩)).toNat? := by
        intro place _ relevant
        rw [blurred.agree.value _ relevant, orient, orient, blurred.config_left,
          blurred.config_right]
      rw [state_values one blurred.config_left left blurred.declared,
        state_values other blurred.config_right right blurred.declared']
      have agree : Snapshot.Agree bench.commands
          (snapshotOf config ((List.range (sampleSize config)).map fun place =>
            (one.orient ((one.probe.value? (sampledPath config place)).getD ⟨[]⟩)).toNat?))
          (snapshotOf config ((List.range (sampleSize config)).map fun place =>
            (other.orient ((other.probe.value? (sampledPath config place)).getD ⟨[]⟩)).toNat?)) := by
        constructor
        case pc =>
          rw [snapshot_of_pc, snapshot_of_pc]
          exact same 0 (by rw [sampleSize]; omega) .pc
        case compared =>
          intro command member comparison action
          have left := Operand.evaluate_agree _ _ same comparison.left
            ⟨command, member, comparison, action, .inl rfl⟩
          have right := Operand.evaluate_agree _ _ same comparison.right
            ⟨command, member, comparison, action, .inr rfl⟩
          simp only [Comparison.evaluate, left, right]
      exact .ok agree { blurred with sampled := .some agree }

theorem Blurred.strobe_meets (blurred : Blurred config bench before before' one other) :
    Meets (fun _ => False) (fun _ => False) Eq (Blurred config bench before before')
      (one.strobe config.wiring.strobePath?) (other.strobe config.wiring.strobePath?) := by
  cases configured : config.wiring.strobePath? with
  | none => exact .ok rfl blurred
  | some path =>
      have same := blurred.agree.value path (.strobe path configured)
      simp only [strobe, Stimulus.read_eq, same]
      cases other.probe.value? path with
      | none => exact .error _ blurred
      | some value => exact .ok rfl blurred

theorem Blurred.wrote (blurred : Blurred config bench before before' one other) (path : String)
    (value : Bus) :
    Blurred config bench before before' { one with probe := one.probe.wrote path value }
      { other with probe := other.probe.wrote path value } := by
  have still : ∀ stimulus : Stimulus, ∀ place, (stimulus.value? place).isSome →
      ((stimulus.wrote path value).value? place).isSome := by
    intro stimulus place present
    rw [Stimulus.wrote_value]
    split
    · rfl
    · exact present
  obtain ⟨added, left, right⟩ := blurred.writes
  have writes : (one.probe.wrote path value).writes =
        before ++ (added ++ [⟨other.probe.now, path, value⟩]) ∧
      (other.probe.wrote path value).writes =
        before' ++ (added ++ [⟨other.probe.now, path, value⟩]) := by
    simp only [Stimulus.wrote, left, right, blurred.agree.now, List.append_assoc, and_self]
  exact
    { blurred with
      agree := blurred.agree.wrote path value
      declared := fun place bound => still _ _ (blurred.declared place bound)
      declared' := fun place bound => still _ _ (blurred.declared' place bound)
      writes := ⟨_, writes⟩ }

theorem Blurred.set_irqs_meets (blurred : Blurred config bench before before' one other)
    (update : IrqUpdate) :
    Meets (fun _ => False) (fun _ => False) Eq (Blurred config bench before before')
      (one.setIrqs update) (other.setIrqs update) := by
  have same := blurred.agree.value _ .irq
  obtain ⟨probe, core, sampled, cycles⟩ := one
  obtain ⟨probe', core', sampled', cycles'⟩ := other
  obtain rfl : core = config := blurred.config_left
  obtain rfl : core' = core := blurred.config_right
  simp only [setIrqs, orient, Stimulus.read_eq]
  cases found : probe'.value? core'.wiring.irq with
  | none =>
      rw [same.trans found]
      exact .error _ blurred
  | some current =>
      rw [same.trans found]
      dsimp only
      rw [Stimulus.write_declared _ _ _ (by rw [same.trans found]; rfl),
        Stimulus.write_declared _ _ _ (by rw [found]; rfl)]
      exact .ok rfl (blurred.wrote _ _)

theorem Blurred.run_cycle_meets (blurred : Blurred config bench before before' one other) :
    Meets (fun _ => False) (fun _ => False) Eq (Blurred config bench before before')
      one.runCycle other.runCycle := by
  apply cycle_meets
  · intro core core' later
    exact { later with cycles := congrArg (· + 1) later.cycles }
  · rw [blurred.config_left, blurred.config_right]
    exact blurred.toBlind.pass_meets config.timing.cycle

theorem blurred_lockstep (config : Config) (bench : Bench) (before before' : List Change)
    (limit : Option Nat) (start : Nat) :
    Lockstep config bench.commands limit start start (fun _ => False) (fun _ => False)
      (Blurred config bench before before') where
  configured blurred := ⟨blurred.config_left, blurred.config_right⟩
  used blurred := congrArg (· - start) blurred.cycles
  spent blurred _ _ := by rw [blurred.cycles]
  strobe := Blurred.strobe_meets
  state := Blurred.state_meets
  setIrqs blurred _ _ update _ := blurred.set_irqs_meets update
  runCycle := Blurred.run_cycle_meets

end Processor

namespace Session

/-- Signals that do not matter to a bench cannot influence a run of it, however they differ
and change: the result, the tally and what is driven on the interrupt lines are the same. -/
theorem run_ignores_irrelevant (config : Config) (bench : Bench) (one other : Processor Stimulus)
    (tally tally' : Tally) (queue queue' : List Pending) (limit : Option Nat)
    (configured : one.config = config) (configured' : other.config = config)
    (cycles : one.cycles = other.cycles)
    (declared : ∀ place < Processor.sampleSize config,
      (one.probe.value? (Processor.sampledPath config place)).isSome)
    (declared' : ∀ place < Processor.sampleSize config,
      (other.probe.value? (Processor.sampledPath config place)).isSome)
    (agree : Stimulus.AgreeOn (config.Relevant bench) one.probe other.probe) :
    let ran := run limit ⟨bench, one, tally, queue⟩
    let ran' := run limit ⟨bench, other, tally', queue'⟩
    ran.1 = ran'.1 ∧ ran.2.tally = ran'.2.tally ∧
      ∃ added, ran.2.processor.probe.writes = one.probe.writes ++ added ∧
        ran'.2.processor.probe.writes = other.probe.writes ++ added := by
  have blind : Processor.Blind config bench one.probe.writes other.probe.writes one other :=
    { config_left := configured, config_right := configured', cycles, agree, declared, declared'
      writes := ⟨[], by rw [List.append_nil], by rw [List.append_nil]⟩ }
  have settled := blind.pass_meets config.timing.settle
  have lockstep := Processor.blurred_lockstep config bench one.probe.writes other.probe.writes
    limit one.cycles
  have counted : ∀ {core core' : Processor Stimulus},
      Processor.Blurred config bench one.probe.writes other.probe.writes core core' →
        core.cycles = core'.cycles := fun blurred => blurred.cycles
  have met := run_meets ⟨bench, one, tally, queue⟩ ⟨bench, other, tally', queue'⟩
    (by rw [← cycles]; exact lockstep) counted rfl rfl
    (by rw [Processor.settle, Processor.settle, configured, configured']; exact settled)
  dsimp only
  generalize run limit ⟨bench, one, tally, queue⟩ = ran at met ⊢
  generalize run limit ⟨bench, other, tally', queue'⟩ = ran' at met ⊢
  cases met with
  | ok values states => exact ⟨congrArg Except.ok values, states.tally, states.cores.writes⟩
  | error error states => exact ⟨rfl, states.tally, states.cores.writes⟩
  | left excuse => exact absurd excuse (by rintro ⟨_, _, ⟨⟩⟩)
  | right excuse => exact absurd excuse (by rintro ⟨_, _, ⟨⟩⟩)

/-- A core with two registers, of which the bench looks at the first only. `aside` is the
second one and what will happen to it. -/
def watchful (aside : Bus) (later : List Change) (ordered : later.Pairwise (·.time ≤ ·.time)) :
    Processor Stimulus where
  probe :=
    { signals := [("pc", Bus.ofNat 0 8), ("r0", Bus.ofNat 7 8), ("r1", aside),
        ("irq", Bus.ofNat 0 4)]
      pending := later
      ordered }
  config :=
    { arch := { generalCount := 2, specialCount := 0 }
      wiring := { pc := "pc", general := "r\x7bindex\x7d", strobe := none, reversed := false } }

def watching : Bench where
  commands :=
    [⟨.compare ⟨.register .general ⟨0, 3, 0⟩, .equal, .constant 6⟩, 0, 0, "r0[3:0] == 6", 2⟩,
      ⟨.interrupt ⟨1, 1⟩, 0, 0, "1->1", 3⟩, ⟨.finish, 0, 1, "", 4⟩]

theorem watching_mentions (operand : Operand) (mentioned : watching.Mentions operand) :
    operand = .register .general ⟨0, 3, 0⟩ ∨ operand = .constant 6 := by
  obtain ⟨command, member, comparison, action, side⟩ := mentioned
  simp only [watching, List.mem_cons, List.not_mem_nil, or_false] at member
  obtain rfl | rfl | rfl := member <;> cases action
  exact side

/-- The second register is undefined and far too wide in one run, while it has a value and
changes in the other. Both end with the same failures and the same interrupts. -/
theorem watching_ignores_aside :
    let one := watchful ⟨List.replicate 70 .unknown⟩ [] (by decide)
    let other := watchful (Bus.ofNat 3 8) [⟨11, "r1", Bus.ofNat 4 8⟩] (by decide)
    let ran := run none ⟨watching, one, {}, []⟩
    let ran' := run none ⟨watching, other, {}, []⟩
    one.probe.value? "r1" ≠ other.probe.value? "r1" ∧ ran.1 = .ok 1 ∧ ran'.1 = .ok 1 ∧
      ran.2.tally = ran'.2.tally ∧ ran'.2.processor.probe.writes =
        [⟨1, "irq", Bus.ofNat 1 4⟩, ⟨11, "irq", Bus.ofNat 1 4⟩] := by
  intro one other
  have aside : ∀ path, one.config.Relevant watching path → path ≠ "r1" := by
    intro path relevant
    cases relevant with
    | pc => decide
    | strobe path configured => cases configured
    | irq => decide
    | register file slice mentioned =>
        obtain ⟨⟨⟩⟩ | ⟨⟨⟩⟩ := watching_mentions _ mentioned
        decide
  have agree : Stimulus.AgreeOn (one.config.Relevant watching) one.probe other.probe :=
    { now := rfl
      value := fun path relevant => by
        have apart := Ne.symm (aside path relevant)
        simp [one, other, watchful, Stimulus.value?, Table.get?, apart]
      pending := fun path relevant => by
        have apart := Ne.symm (aside path relevant)
        simp [one, other, watchful, apart] }
  have same := run_ignores_irrelevant one.config watching one other {} {} [] [] none rfl rfl rfl
    (by decide) (by decide) agree
  have ended : (run none ⟨watching, one, {}, []⟩).1 = .ok 1 := by decide +kernel
  have driven : (run none ⟨watching, one, {}, []⟩).2.processor.probe.writes =
      [⟨1, "irq", Bus.ofNat 1 4⟩, ⟨11, "irq", Bus.ofNat 1 4⟩] := by decide +kernel
  dsimp only at same ⊢
  generalize run none ⟨watching, one, {}, []⟩ = ran at same ended driven ⊢
  obtain ⟨result, tally, added, writes, writes'⟩ := same
  have recorded := writes.symm.trans driven
  exact ⟨by decide, ended, result.symm.trans ended, tally, writes'.trans recorded⟩

end Session

end CoreBench
