import CoreBench.Proofs.Lockstep
import CoreBench.Proofs.Recall
import CoreBench.Proofs.Transcript
import Mathlib.Algebra.Ring.Nat

/-!
A replay beside its transcript. While both are at a time that the recording covers, they
show the same, so a bench that drives nothing runs alike on both. They part where the time
that is asked for is not covered: the replay refuses it, and the stimulus goes on until the
time no longer fits into 64 bits.
-/

namespace CoreBench

/-- Lets several stretches of time pass, up to the first that fails. -/
def Probe.advanceAll {P : Type} [Probe P] : P → List Nat → Except ProbeError Unit × P
  | probe, [] => (.ok (), probe)
  | probe, units :: rest =>
      match Probe.advance probe units with
      | (.error error, probe) => (.error error, probe)
      | (.ok (), probe) => advanceAll probe rest

/-- The path is the full name of a signal. -/
def Waveform.Names (waveform : Waveform) (path : String) : Prop :=
  ∃ signal ∈ waveform.signals, signal.name = path

instance (waveform : Waveform) (path : String) : Decidable (waveform.Names path) :=
  inferInstanceAs (Decidable (∃ signal ∈ waveform.signals, signal.name = path))

namespace Replay

theorem normalize_plain (path : String) (plain : '/' ∉ path.toList) : normalize path = path := by
  have kept : ∀ cs : List Char, '/' ∉ cs → cs.dropWhile (fun c => c == '/') = cs := by
    intro cs absent
    cases cs with
    | nil => rfl
    | cons c rest =>
        have other : (c == '/') = false :=
          beq_eq_false_iff_ne.mpr (Ne.symm (List.ne_of_not_mem_cons absent))
        rw [List.dropWhile_cons_of_neg (by rw [other]; exact Bool.false_ne_true)]
  have same : path.toList.map (fun c => if c = '/' then '.' else c) = path.toList.map id := by
    apply List.map_congr_left
    intro c member
    exact if_neg fun slash : c = '/' => plain (slash ▸ member)
  rw [normalize, trimSlashes, kept _ plain, kept _ (by rwa [List.mem_reverse]),
    List.reverse_reverse, same, List.map_id, String.ofList_toList]

/-- A replay and a stimulus at the same time, which the recording covers. From now on the
stimulus will show what is recorded. -/
structure Paired (waveform : Waveform) (unit : Nat) (replay : Replay) (stimulus : Stimulus) :
    Prop where
  recording : replay.waveform = waveform
  scale : replay.unit = unit
  unforced : replay.forced = []
  now : stimulus.now = replay.now
  covered : replay.now ≤ waveform.endTime / unit
  next : ∀ signal ∈ waveform.signals, ∀ time, replay.now ≤ time →
    stimulus.scheduled? signal.name time = some (signal.valueAt (time * unit))

/-- Besides, the stimulus shows already what is recorded. -/
structure InStep (waveform : Waveform) (unit : Nat) (replay : Replay) (stimulus : Stimulus) :
    Prop extends Paired waveform unit replay stimulus where
  value : ∀ signal ∈ waveform.signals,
    stimulus.value? signal.name = some (signal.valueAt (replay.now * unit))

variable {waveform : Waveform} {unit : Nat} {replay : Replay} {stimulus : Stimulus}

theorem paired_start (orderly : waveform.Orderly) (whole : 1 ≤ unit) :
    Paired waveform unit (start waveform unit) (waveform.transcript unit) where
  recording := rfl
  scale := Nat.max_eq_right whole
  unforced := rfl
  now := waveform.transcript_now unit
  covered := Nat.zero_le _
  next signal member time _ := orderly.transcript_scheduled unit whole signal member time

theorem Paired.end_time (paired : Paired waveform unit replay stimulus) :
    replay.endTime = waveform.endTime / unit := by
  rw [endTime, paired.recording, paired.scale]

/-- Time that the recording covers passes on both, and then they show the same. -/
theorem Paired.advance (paired : Paired waveform unit replay stimulus)
    (orderly : waveform.Orderly) (units : Nat)
    (covered : replay.now + units ≤ waveform.endTime / unit) :
    ∃ replay' stimulus', Probe.advance replay units = (.ok (), replay') ∧
      Probe.advance stimulus units = (.ok (), stimulus') ∧
      InStep waveform unit replay' stimulus' ∧ replay'.now = replay.now + units := by
  have fits : replay.now + units < wordLimit :=
    Nat.lt_of_le_of_lt (Nat.le_trans covered (Nat.div_le_self _ _)) orderly.fits
  have whole : min (replay.now + units) (wordLimit - 1) = replay.now + units := by omega
  have reached : stimulus.now + units = replay.now + units := by rw [paired.now]
  have next : ∀ signal ∈ waveform.signals, ∀ time, replay.now + units ≤ time →
      stimulus.scheduled? signal.name time = some (signal.valueAt (time * unit)) :=
    fun signal member time later => paired.next signal member time (by omega)
  refine ⟨{ replay with now := replay.now + units }, stimulus.advanced units, ?_,
    stimulus.advance_ok units (by rw [reached]; exact fits), ?_, rfl⟩
  · show Replay.advance replay units = _
    rw [Replay.advance, whole, paired.end_time, if_neg (Nat.not_lt.mpr covered)]
  · constructor
    · constructor
      case recording => exact paired.recording
      case scale => exact paired.scale
      case unforced => exact paired.unforced
      case now => exact reached
      case covered => exact covered
      case next =>
        intro signal member time later
        rw [Stimulus.advanced_scheduled _ _ _ _ (by rw [reached]; exact later)]
        exact next signal member time later
    · intro signal member
      rw [Stimulus.advanced_value, reached]
      exact next signal member _ (Nat.le_refl _)

theorem InStep.advance_all (in_step : InStep waveform unit replay stimulus)
    (orderly : waveform.Orderly) (units : List Nat)
    (covered : replay.now + units.sum ≤ waveform.endTime / unit) :
    ∃ replay' stimulus', Probe.advanceAll replay units = (.ok (), replay') ∧
      Probe.advanceAll stimulus units = (.ok (), stimulus') ∧
      InStep waveform unit replay' stimulus' := by
  induction units generalizing replay stimulus with
  | nil => exact ⟨replay, stimulus, rfl, rfl, in_step⟩
  | cons first rest ih =>
      rw [List.sum_cons, ← Nat.add_assoc] at covered
      obtain ⟨replay', stimulus', left, right, in_step', now⟩ :=
        in_step.toPaired.advance orderly first (Nat.le_trans (Nat.le_add_right _ _) covered)
      rw [Probe.advanceAll, Probe.advanceAll, left, right]
      exact ih in_step' (by rw [now]; exact covered)

theorem Paired.advance_all (paired : Paired waveform unit replay stimulus)
    (orderly : waveform.Orderly) (units : List Nat) (some : units ≠ [])
    (covered : replay.now + units.sum ≤ waveform.endTime / unit) :
    ∃ replay' stimulus', Probe.advanceAll replay units = (.ok (), replay') ∧
      Probe.advanceAll stimulus units = (.ok (), stimulus') ∧
      InStep waveform unit replay' stimulus' := by
  cases units with
  | nil => exact absurd rfl some
  | cons first rest =>
      rw [List.sum_cons, ← Nat.add_assoc] at covered
      obtain ⟨replay', stimulus', left, right, in_step, now⟩ :=
        paired.advance orderly first (Nat.le_trans (Nat.le_add_right _ _) covered)
      rw [Probe.advanceAll, Probe.advanceAll, left, right]
      exact in_step.advance_all orderly rest (by rw [now]; exact covered)

/-- What a replay answers beyond its recording. -/
def PastEnd (error : ProbeError) : Prop :=
  ∃ last requested, error = .endOfTrace last requested

/-- What a stimulus answers at the end of time, if the recording goes on until then. -/
def PastTime (waveform : Waveform) (unit : Nat) (error : ProbeError) : Prop :=
  error = .backend "simulated time overflow" ∧ waveform.endTime / unit = wordLimit - 1

theorem Paired.advance_meets (paired : Paired waveform unit replay stimulus)
    (orderly : waveform.Orderly) (units : Nat) :
    Meets PastEnd (PastTime waveform unit) Eq (InStep waveform unit)
      (Probe.advance replay units) (Probe.advance stimulus units) := by
  have bound : waveform.endTime / unit < wordLimit :=
    Nat.lt_of_le_of_lt (Nat.div_le_self _ _) orderly.fits
  by_cases covered : replay.now + units ≤ waveform.endTime / unit
  · obtain ⟨replay', stimulus', left, right, in_step, _⟩ := paired.advance orderly units covered
    rw [left, right]
    exact .ok rfl in_step
  · by_cases full : wordLimit ≤ stimulus.now + units
    · rw [Stimulus.advance_full _ _ full]
      -- The replay asks for the last time of all, which such a recording covers.
      by_cases last : waveform.endTime / unit = wordLimit - 1
      · exact .right ⟨rfl, last⟩
      · have late : replay.endTime < min (replay.now + units) (wordLimit - 1) := by
          rw [paired.end_time]
          omega
        show Meets _ _ _ _ (Replay.advance replay units) _
        rw [Replay.advance, if_pos late]
        exact .left ⟨_, _, rfl⟩
    · rw [paired.now] at full
      have late : replay.endTime < min (replay.now + units) (wordLimit - 1) := by
        rw [paired.end_time]
        omega
      show Meets _ _ _ _ (Replay.advance replay units) _
      rw [Replay.advance, if_pos late]
      exact .left ⟨_, _, rfl⟩

theorem InStep.of_twin {after : Replay} (in_step : InStep waveform unit replay stimulus)
    (twin : Twin after replay) : InStep waveform unit after stimulus := by
  constructor
  · constructor
    case recording => exact twin.waveform.trans in_step.recording
    case scale => exact twin.unit.trans in_step.scale
    case unforced => exact twin.forced.trans in_step.unforced
    case now => exact in_step.now.trans twin.now.symm
    case covered => exact twin.now ▸ in_step.covered
    case next => exact twin.now ▸ in_step.next
  · exact twin.now ▸ in_step.value

/-- Both answer the value that is recorded for the present time. -/
theorem InStep.read (in_step : InStep waveform unit replay stimulus) (orderly : waveform.Orderly)
    (path : String) (named : waveform.Names path) :
    ∃ value after, Probe.read replay path = (.ok value, after) ∧
      InStep waveform unit after stimulus ∧ Probe.read stimulus path = (.ok value, stimulus) := by
  obtain ⟨signal, member, rfl⟩ := named
  have present : replay.now * unit < wordLimit := by
    have covered := Nat.mul_le_mul_right unit in_step.covered
    exact Nat.lt_of_le_of_lt (Nat.le_trans covered (Nat.div_mul_le_self _ _)) orderly.fits
  have now : replay.nowFs = replay.now * unit := by
    rw [nowFs, in_step.scale]
    omega
  obtain ⟨answered, twin⟩ := replay.read_twin signal.name
  refine ⟨signal.valueAt (replay.now * unit), (replay.read signal.name).2, ?_,
    in_step.of_twin twin, stimulus.read_declared _ _ (in_step.value signal member)⟩
  refine Prod.ext (answered.trans ?_) rfl
  rw [answer, normalize_plain _ (orderly.plain signal member), in_step.unforced, Table.get?,
    in_step.recording, Waveform.signal?, orderly.resolve_name signal member, now]

end Replay

namespace Processor

open Replay

/-- Two cores that differ in their probes, which are in some relation. -/
structure Beside (config : Config) (pair : Replay → Stimulus → Prop) (one : Processor Replay)
    (other : Processor Stimulus) : Prop where
  config_left : one.config = config
  config_right : other.config = config
  cycles : one.cycles = other.cycles
  sampled : one.sampled = other.sampled
  probes : pair one.probe other.probe

variable {config : Config} {waveform : Waveform} {unit : Nat}
  {one : Processor Replay} {other : Processor Stimulus}

theorem pass_beside (orderly : waveform.Orderly)
    (beside : Beside config (Paired waveform unit) one other) (units : Nat) :
    Meets PastEnd (PastTime waveform unit) Eq (Beside config (InStep waveform unit))
      (one.pass units) (other.pass units) := by
  have met := beside.probes.advance_meets orderly units
  rw [pass, pass]
  generalize Probe.advance one.probe units = advanced at met ⊢
  generalize Probe.advance other.probe units = advanced' at met ⊢
  cases met with
  | ok values probes => exact .ok rfl { beside with sampled := rfl, probes }
  | error error probes => exact .error error { beside with sampled := rfl, probes }
  | left excuse => exact .left excuse
  | right excuse => exact .right excuse

theorem read_from_beside (orderly : waveform.Orderly) {replay : Replay} {stimulus : Stimulus}
    (in_step : InStep waveform unit replay stimulus) (path : Nat → String) (first count : Nat)
    (values : List Bus)
    (named : ∀ place, first ≤ place → place < first + count → waveform.Names (path place)) :
    ∃ read after, readFrom path first count values replay = (.ok read, after) ∧
      InStep waveform unit after stimulus ∧
      readFrom path first count values stimulus = (.ok read, stimulus) := by
  induction count generalizing first values replay with
  | zero => exact ⟨values.reverse, replay, rfl, in_step, rfl⟩
  | succ count ih =>
      obtain ⟨value, after, left, later, right⟩ :=
        in_step.read orderly _ (named first (by omega) (by omega))
      rw [readFrom, readFrom, left, right]
      exact ih later (first + 1) (value :: values)
        fun place low high => named place (by omega) (by omega)

/-- A bench that drives nothing on cores whose signals are all in the recording. -/
theorem replay_lockstep (orderly : waveform.Orderly) (commands : List Command)
    (limit : Option Nat) (start : Nat)
    (quiet : ∀ command ∈ commands, ∀ update, command.action ≠ .interrupt update)
    (named : ∀ place < sampleSize config, waveform.Names (sampledPath config place))
    (strobed : ∀ path, config.wiring.strobePath? = some path → waveform.Names path) :
    Lockstep config commands limit start start PastEnd (PastTime waveform unit)
      (Beside config (InStep waveform unit)) where
  configured beside := ⟨beside.config_left, beside.config_right⟩
  used beside := congrArg (· - start) beside.cycles
  spent beside _ _ := by rw [beside.cycles]
  setIrqs _ command member update interrupt := absurd interrupt (quiet command member update)
  strobe beside := by
    cases configured : config.wiring.strobePath? with
    | none => exact .ok rfl beside
    | some path =>
        obtain ⟨value, after, left, probes, right⟩ :=
          beside.probes.read orderly path (strobed path configured)
        simp only [strobe, left, right]
        exact .ok rfl { beside with probes }
  state := by
    rintro ⟨replay, config', sampled, cycles⟩ ⟨stimulus, config'', sampled', cycles'⟩ beside
    obtain rfl : sampled = sampled' := beside.sampled
    obtain rfl : config' = config := beside.config_left
    obtain rfl : config'' = config' := beside.config_right
    cases sampled with
    | some snapshot => exact .ok (.refl _ _) beside
    | none =>
        obtain ⟨values, after, left, probes, right⟩ := read_from_beside orderly beside.probes
          (sampledPath config'') 0 (sampleSize config'') []
          fun place _ bound => named place (by omega)
        simp only [state, left, right, orient]
        exact .ok (.refl _ _) { beside with sampled := rfl, probes }
  runCycle := by
    intro one other beside
    have paired : Beside config (Paired waveform unit) one other :=
      { beside with probes := beside.probes.toPaired }
    apply cycle_meets
    · intro core core' later
      exact { later with cycles := congrArg (· + 1) later.cycles }
    · rw [beside.config_left, beside.config_right]
      exact pass_beside orderly paired config.timing.cycle

end Processor

namespace Waveform

open Session Replay

/-- A loaded recording with distinct names shows the same, and a bench that drives nothing
runs the same, whether it is replayed or its transcript is played. A run on the replay may
end at the end of the recording. If that is the last time that 64 bits can hold, the replay
does not see its end, and a run on the transcript may end with the time instead. -/
theorem replay_as_transcript (text : String) (waveform : Waveform) (unit : Nat)
    (loaded : ofText text = .ok waveform) (distinct : (waveform.signals.map Signal.name).Nodup)
    (plain : ∀ signal ∈ waveform.signals, '/' ∉ signal.name.toList) (whole : 1 ≤ unit) :
    let replay := Replay.start waveform unit
    let transcript := waveform.transcript unit
    (∀ units : List Nat, units ≠ [] → units.sum ≤ replay.endTime →
      ∃ replay' transcript', Probe.advanceAll replay units = (.ok (), replay') ∧
        Probe.advanceAll transcript units = (.ok (), transcript') ∧
        ∀ path, waveform.Names path → ∃ value, (Probe.read replay' path).1 = .ok value ∧
          (Probe.read transcript' path).1 = .ok value) ∧
      ∀ (bench : Bench) (config : Config) (cycles : Nat) (sampled : Option Snapshot)
        (tally : Tally) (queue : List Pending) (limit : Option Nat),
        (∀ command ∈ bench.commands, ∀ update, command.action ≠ .interrupt update) →
        (∀ place < Processor.sampleSize config,
          waveform.Names (Processor.sampledPath config place)) →
        (∀ path, config.wiring.strobePath? = some path → waveform.Names path) →
        let ran := run limit ⟨bench, ⟨replay, config, sampled, cycles⟩, tally, queue⟩
        let ran' := run limit ⟨bench, ⟨transcript, config, sampled, cycles⟩, tally, queue⟩
        (∀ last requested, ran.1 ≠ .error (.probe (.endOfTrace last requested))) →
        (replay.endTime = wordLimit - 1 →
          ran'.1 ≠ .error (.probe (.backend "simulated time overflow"))) →
        ran.1 = ran'.1 ∧ ran.2.tally = ran'.2.tally := by
  intro replay transcript
  obtain ⟨sorted, fits⟩ := loaded_ordered text waveform loaded
  have orderly : waveform.Orderly := ⟨distinct, plain, sorted, fits⟩
  have paired : Paired waveform unit replay transcript := paired_start orderly whole
  constructor
  · intro units some covered
    rw [paired.end_time] at covered
    obtain ⟨replay', transcript', left, right, in_step⟩ :=
      paired.advance_all orderly units some (by rwa [show replay.now = 0 from rfl, Nat.zero_add])
    refine ⟨replay', transcript', left, right, ?_⟩
    intro path named
    obtain ⟨value, _, read, _, read'⟩ := in_step.read orderly path named
    exact ⟨value, by rw [read], by rw [read']⟩
  · intro bench config cycles sampled tally queue limit quiet named strobed ran ran' inside counted
    have beside : Processor.Beside config (Paired waveform unit)
        ⟨replay, config, sampled, cycles⟩ ⟨transcript, config, sampled, cycles⟩ :=
      ⟨rfl, rfl, rfl, rfl, paired⟩
    have met := run_meets ⟨bench, ⟨replay, config, sampled, cycles⟩, tally, queue⟩
      ⟨bench, ⟨transcript, config, sampled, cycles⟩, tally, queue⟩
      (Processor.replay_lockstep orderly bench.commands limit cycles quiet named strobed)
      (fun beside => beside.cycles) rfl rfl
      (Processor.pass_beside orderly beside config.timing.settle)
    revert inside counted
    dsimp only [ran, ran']
    generalize run limit ⟨bench, ⟨replay, config, sampled, cycles⟩, tally, queue⟩ = ran at met ⊢
    generalize run limit ⟨bench, ⟨transcript, config, sampled, cycles⟩, tally, queue⟩ = ran'
      at met ⊢
    intro inside counted
    cases met with
    | ok values states => exact ⟨congrArg Except.ok values, states.tally⟩
    | error error states => exact ⟨rfl, states.tally⟩
    | left excuse =>
        obtain ⟨_, rfl, last, requested, rfl⟩ := excuse
        exact absurd rfl (inside last requested)
    | right excuse =>
        obtain ⟨_, rfl, rfl, last⟩ := excuse
        exact absurd rfl (counted (paired.end_time.trans last))

/-- A register that is loaded between two units of time, before the core moves on. -/
def loadingDump : String :=
  "$var reg 8 ! pc $end $var reg 4 ? r0 $end $enddefinitions $end " ++
    "#0 b0 ! #15 b0101 ? #20 b100 ! #40 b110 ?"

def loading : Waveform where
  fsPerUnit := 1
  signals :=
    [⟨"pc", 8, [⟨0, Bus.ofNat 0 8⟩, ⟨20, Bus.ofNat 4 8⟩]⟩,
      ⟨"r0", 4, [⟨15, Bus.ofNat 5 4⟩, ⟨40, Bus.ofNat 6 4⟩]⟩]
  endTime := 40

def loadingConfig : Config where
  arch := { generalCount := 1, specialCount := 0 }
  wiring := { pc := "pc", general := "r\x7bindex\x7d", strobe := none, reversed := false }
  timing := { cycle := 1 }

def loadingBench : Bench where
  commands :=
    [⟨.compare ⟨.register .general ⟨0, 3, 0⟩, .equal, .constant 5⟩, 0, 1, "r0[3:0] == 5", 2⟩,
      ⟨.finish, 1, 0, "", 4⟩]

/-- In units of ten femtoseconds the register is undefined until the second unit, in which
the run ends. -/
theorem loading_as_transcript :
    let ran := run none ⟨loadingBench, ⟨Replay.start loading 10, loadingConfig, none, 0⟩, {}, []⟩
    let ran' := run none ⟨loadingBench, ⟨loading.transcript 10, loadingConfig, none, 0⟩, {}, []⟩
    ofText loadingDump = .ok loading ∧
      (Probe.read (Probe.advanceAll (loading.transcript 10) [1, 0]).2 "r0").1 =
        .ok (Bus.filled 4 .unknown) ∧
      ran.1 = .ok 1 ∧ ran'.1 = .ok 1 ∧ ran'.2.tally = ⟨1, [], true⟩ := by
  have loaded : ofText loadingDump = .ok loading := by decide +kernel
  obtain ⟨shown, alike⟩ := replay_as_transcript loadingDump loading 10 loaded (by decide)
    (by decide) (by decide)
  obtain ⟨replay', transcript', left, right, same⟩ := shown [1, 0] (by decide) (by decide)
  obtain ⟨value, read, read'⟩ := same "r0" (by decide)
  have undefined : (Probe.read (Probe.advanceAll (Replay.start loading 10) [1, 0]).2 "r0").1 =
      .ok (Bus.filled 4 .unknown) := by decide +kernel
  rw [left, read] at undefined
  rw [right, read', undefined]
  have quiet : ∀ command ∈ loadingBench.commands, ∀ update,
      command.action ≠ .interrupt update := by
    rintro command (_ | ⟨_, _ | ⟨_, ⟨⟩⟩⟩) <;> nofun
  have run_alike := alike loadingBench loadingConfig 0 none {} [] none quiet (by decide) nofun
  have ended : (run none
      ⟨loadingBench, ⟨Replay.start loading 10, loadingConfig, none, 0⟩, {}, []⟩).1 = .ok 1 := by
    decide +kernel
  have tally : (run none ⟨loadingBench, ⟨Replay.start loading 10, loadingConfig, none, 0⟩, {},
      []⟩).2.tally = ⟨1, [], true⟩ := by decide +kernel
  dsimp only at run_alike ⊢
  generalize run none ⟨loadingBench, ⟨Replay.start loading 10, loadingConfig, none, 0⟩, {}, []⟩ =
    ran at run_alike ended tally ⊢
  obtain ⟨result, counted⟩ :=
    run_alike (by rw [ended]; nofun) (fun last => absurd last (by decide))
  exact ⟨loaded, rfl, ended, result.symm.trans ended, counted.symm.trans tally⟩

/-- A recording that goes on until the last time that 64 bits can hold. -/
def lastingDump : String :=
  "$timescale 1fs $end $var reg 8 ! pc $end $enddefinitions $end " ++
    "#0 b0 ! #18446744073709551615"

def lasting : Waveform where
  fsPerUnit := 1
  signals := [⟨"pc", 8, [⟨0, Bus.ofNat 0 8⟩]⟩]
  endTime := wordLimit - 1

def lastingConfig : Config where
  arch := { generalCount := 0, specialCount := 0 }
  wiring := { pc := "pc", strobe := none, reversed := false }
  timing := { cycle := wordLimit - 1 }

/-- At the last time of 64 bits a replay lets any number of cycles pass, in no time. -/
theorem lasting_replay_parts :
    ofText lastingDump = .ok lasting ∧
      (run (some 2) ⟨{}, ⟨Replay.start lasting 1, lastingConfig, none, 0⟩, {}, []⟩).1 =
        .error (.cycleLimit 2) ∧
      (run (some 2) ⟨{}, ⟨lasting.transcript 1, lastingConfig, none, 0⟩, {}, []⟩).1 =
        .error (.probe (.backend "simulated time overflow")) :=
  ⟨by decide +kernel, by decide +kernel, by decide +kernel⟩

end Waveform

end CoreBench
