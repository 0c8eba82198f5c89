import CoreBench.Run.Processor

/-!
What a snapshot holds. A probe is asked for one signal after another and may change with
every request, so what it answers for a signal depends on the place of the signal in the
sample. The snapshot has, at each place, the number of the answer that came for it.
-/

namespace CoreBench

namespace Arch

/-- The place of a register in a sample. -/
def place (arch : Arch) : RegisterFile → Nat → Nat
  | .general, index => 1 + index
  | .special, index => 1 + arch.generalCount + index

end Arch

namespace Processor

variable {P : Type} [Probe P]

/-- The probe after it has been asked for the first signals of a sample. -/
def asked (path : Nat → String) (probe : P) : Nat → P
  | 0 => probe
  | count + 1 => (Probe.read (asked path probe count) (path count)).2

/-- What the probe answers for the signal at a place, after those in front of it. -/
def answer (path : Nat → String) (probe : P) (place : Nat) : Except ProbeError Bus :=
  (Probe.read (asked path probe place) (path place)).1

theorem read_from_answers (path : Nat → String) (probe next : P) (first count : Nat)
    (values : List Bus)
    (read : readFrom path first count [] (asked path probe first) = (.ok values, next)) :
    (List.range' first count).map (answer path probe) = values.map Except.ok ∧
      next = asked path probe (first + count) := by
  -- On the count; each request moves the probe on to the next place.
  induction count generalizing first values with
  | zero =>
      cases read
      exact ⟨rfl, rfl⟩
  | succ count ih =>
      rw [readFrom] at read
      cases here : Probe.read (asked path probe first) (path first) with
      | mk result moved =>
          rw [here] at read
          cases result with
          | error error => cases read
          | ok value =>
              have place : moved = asked path probe (first + 1) := by rw [asked, here]
              have answered : answer path probe first = .ok value := by rw [answer, here]
              simp only [place] at read
              rw [readFrom_values] at read
              cases rest : readFrom path (first + 1) count [] (asked path probe (first + 1)) with
              | mk later final =>
                  rw [rest] at read
                  cases later with
                  | error error => cases read
                  | ok others =>
                      cases read
                      obtain ⟨answers, reached⟩ := ih (first + 1) others rest
                      constructor
                      · rw [List.range'_succ, List.map_cons, answers, answered]
                        rfl
                      · rw [reached, Nat.add_assoc, Nat.add_comm 1]

/-- The signals of a core as the probe has answered for them, each under its own path. -/
structure Readout (processor : Processor P) where
  pc : Bus
  register : RegisterFile → Nat → Bus
  pc_answer : (Probe.read processor.probe processor.config.wiring.pc).1 = .ok pc
  register_answer : ∀ file index, index < processor.config.arch.count file →
    (Probe.read
      (asked (sampledPath processor.config) processor.probe (processor.config.arch.place file index))
      (processor.config.wiring.registerPath file index processor.config.arch.wordSize)).1 =
        .ok (register file index)

/-- A snapshot holds the numbers of the signals, with their bits in the order of the
settings. -/
structure Shows {processor : Processor P} (snapshot : Snapshot) (readout : processor.Readout) :
    Prop where
  pc : snapshot.pc = (processor.orient readout.pc).toNat?
  register : ∀ file index, index < processor.config.arch.count file →
    (snapshot.registers file)[index]? =
      some (processor.orient (readout.register file index)).toNat?

theorem state_answers (processor next : Processor P) (snapshot : Snapshot)
    (fresh : processor.sampled = none) (sampled : processor.state = (.ok snapshot, next)) :
    ∃ values : List Bus,
      (List.range (sampleSize processor.config)).map
          (answer (sampledPath processor.config) processor.probe) = values.map Except.ok ∧
        snapshot = snapshotOf processor.config
          (values.map fun value => (processor.orient value).toNat?) := by
  rw [state, fresh] at sampled
  cases read : readFrom (sampledPath processor.config) 0 (sampleSize processor.config) []
      processor.probe with
  | mk result probe =>
      simp only [read] at sampled
      cases result with
      | error error => cases sampled
      | ok values =>
          cases sampled
          have answers := (read_from_answers _ processor.probe _ 0 _ values read).1
          rw [← List.range_eq_range'] at answers
          exact ⟨values, answers, rfl⟩

theorem place_lt (config : Config) (file : RegisterFile) (index : Nat)
    (present : index < config.arch.count file) :
    config.arch.place file index < sampleSize config := by
  cases file <;> simp only [Arch.count, Arch.place, sampleSize] at * <;> omega

theorem sampled_path_place (config : Config) (file : RegisterFile) (index : Nat)
    (present : index < config.arch.count file) :
    sampledPath config (config.arch.place file index) =
      config.wiring.registerPath file index config.arch.wordSize := by
  cases file with
  | general =>
      rw [Arch.count] at present
      rw [Arch.place, Nat.add_comm, sampledPath, if_pos present]
  | special =>
      have behind : ¬ config.arch.generalCount + index < config.arch.generalCount := by omega
      rw [Arch.place, Nat.add_assoc, Nat.add_comm, sampledPath, if_neg behind,
        Nat.add_sub_cancel_left]

theorem snapshot_of_register (config : Config) (numbers : List (Option Nat)) (file : RegisterFile)
    (index : Nat) (present : index < config.arch.count file) :
    ((snapshotOf config numbers).registers file)[index]? =
      numbers[config.arch.place file index]? := by
  cases file with
  | general =>
      rw [Arch.count] at present
      rw [snapshotOf, Snapshot.registers, List.getElem?_take_of_lt present, List.getElem?_drop]
      rfl
  | special =>
      rw [snapshotOf, Snapshot.registers, List.getElem?_drop, List.getElem?_drop, ← Nat.add_assoc]
      rfl

/-- A fresh snapshot shows what the probe has answered. -/
theorem state_fresh (processor next : Processor P) (snapshot : Snapshot)
    (fresh : processor.sampled = none) (sampled : processor.state = (.ok snapshot, next)) :
    ∃ readout : processor.Readout, Shows snapshot readout := by
  obtain ⟨values, answers, rfl⟩ := state_answers processor next snapshot fresh sampled
  obtain ⟨signal, answered⟩ : ∃ signal : Nat → Bus, ∀ place < sampleSize processor.config,
      values[place]? = some (signal place) ∧
        answer (sampledPath processor.config) processor.probe place = .ok (signal place) := by
    refine ⟨fun place => values.getD place ⟨[]⟩, ?_⟩
    intro place inside
    have found := congrArg (·[place]?) answers
    simp only [List.getElem?_map, List.getElem?_range inside, Option.map_some] at found
    obtain ⟨value, there, same⟩ := Option.map_eq_some_iff.mp found.symm
    simp [there, ← same]
  have start : 0 < sampleSize processor.config := by
    rw [sampleSize]
    omega
  have pc_answer : (Probe.read processor.probe processor.config.wiring.pc).1 = .ok (signal 0) :=
    (answered 0 start).2
  refine ⟨{
    pc := signal 0
    register := fun file index => signal (processor.config.arch.place file index)
    pc_answer
    register_answer := ?_ }, ⟨?_, ?_⟩⟩
  · intro file index present
    have here := (answered _ (place_lt processor.config file index present)).2
    rwa [answer, sampled_path_place processor.config file index present] at here
  · have first := (answered 0 start).1
    rw [snapshotOf, List.head?_eq_getElem?, List.getElem?_map, first]
    rfl
  · intro file index present
    have here := (answered _ (place_lt processor.config file index present)).1
    rw [snapshot_of_register _ _ _ _ present, List.getElem?_map, here, Option.map_some]

end Processor

end CoreBench
