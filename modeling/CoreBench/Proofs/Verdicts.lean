import CoreBench.Probe.Stimulus
import CoreBench.Proofs.BitSums
import CoreBench.Proofs.Operands
import CoreBench.Proofs.Sampling

/-!
What a comparison says about the signals. It passes exactly when all signals that it
names are known and the relation holds between the numbers on the named lines, and fails
otherwise. Because reading checks what operands name, no failure is about a register that
the snapshot lacks.
-/

namespace CoreBench

variable {P : Type} [Probe P]

namespace Processor.Readout

variable {processor : Processor P}

/-- The bits of the signal that an operand names, in the order of the settings. -/
def bits? (readout : processor.Readout) : Operand → Option Bus
  | .constant _ => none
  | .programCounter => some (processor.orient readout.pc)
  | .register file slice => some (processor.orient (readout.register file slice.index))

/-- Nothing that an operand names is undefined or too wide. -/
def Knows (readout : processor.Readout) (operand : Operand) : Prop :=
  ∀ bus ∈ readout.bits? operand, bus.Known

/-- What an operand stands for: a constant, the number of the program counter, or the sum
over the lines of a slice. -/
def value (readout : processor.Readout) : Operand → Nat
  | .constant value => value
  | .programCounter =>
      let bus := processor.orient readout.pc
      ∑ index ∈ Finset.range bus.width, bus.bit index * 2 ^ index
  | .register file slice =>
      let bus := processor.orient (readout.register file slice.index)
      ∑ index ∈ Finset.Icc slice.lo slice.hi, bus.bit index * 2 ^ (index - slice.lo)

end Processor.Readout

theorem Processor.Readout.knows_iff {processor : Processor P} (readout : processor.Readout)
    {operand : Operand} {bus : Bus} (named : readout.bits? operand = some bus) :
    readout.Knows operand ↔ bus.Known := by
  simp [Knows, named]

variable {processor : Processor P} {snapshot : Snapshot} {readout : processor.Readout}

namespace Operand

theorem evaluate_known (operand : Operand) (shows : Processor.Shows snapshot readout)
    (usable : processor.config.Usable) (within : operand.Within processor.config.arch)
    (known : readout.Knows operand) :
    operand.evaluate snapshot = .ok (readout.value operand) := by
  cases operand with
  | constant value => rfl
  | programCounter =>
      have bus := (readout.knows_iff rfl).mp known
      have number := (Bus.to_nat_eq_some_iff _ _).mpr ⟨bus, rfl⟩
      simp only [evaluate, shows.pc, number, Processor.Readout.value]
  | register file slice =>
      obtain ⟨present, order, bound⟩ := within
      have bus := (readout.knows_iff rfl).mp known
      have number := (Bus.to_nat_eq_some_iff _ _).mpr ⟨bus, rfl⟩
      have width := usable.wordSize_le
      simp only [evaluate, shows.register file slice.index present, number,
        Processor.Readout.value]
      rw [slice.extract_known _ _ number order (by omega)]

theorem evaluate_unknown (operand : Operand) (shows : Processor.Shows snapshot readout)
    (within : operand.Within processor.config.arch) (unknown : ¬ readout.Knows operand) :
    operand.evaluate snapshot = .error (.unknown operand.toText) := by
  cases operand with
  | constant value => exact absurd (by nofun) unknown
  | programCounter =>
      rw [readout.knows_iff rfl, ← Bus.to_nat_eq_none_iff] at unknown
      simp only [evaluate, shows.pc, unknown]
  | register file slice =>
      rw [readout.knows_iff rfl, ← Bus.to_nat_eq_none_iff] at unknown
      simp only [evaluate, shows.register file slice.index within.1, unknown]

end Operand

namespace Comparison

theorem evaluate_known (comparison : Comparison) (shows : Processor.Shows snapshot readout)
    (usable : processor.config.Usable)
    (left : comparison.left.Within processor.config.arch)
    (right : comparison.right.Within processor.config.arch)
    (known : readout.Knows comparison.left ∧ readout.Knows comparison.right) :
    comparison.evaluate snapshot =
      .ok (readout.value comparison.left, readout.value comparison.right) := by
  rw [evaluate, comparison.left.evaluate_known shows usable left known.1,
    comparison.right.evaluate_known shows usable right known.2]

theorem evaluate_unknown (comparison : Comparison) (shows : Processor.Shows snapshot readout)
    (usable : processor.config.Usable)
    (left : comparison.left.Within processor.config.arch)
    (right : comparison.right.Within processor.config.arch)
    (unknown : ¬ (readout.Knows comparison.left ∧ readout.Knows comparison.right)) :
    ∃ name, comparison.evaluate snapshot = .error (.unknown name) := by
  rw [evaluate]
  by_cases known : readout.Knows comparison.left
  · have other : ¬ readout.Knows comparison.right := fun both => unknown ⟨known, both⟩
    rw [comparison.left.evaluate_known shows usable left known,
      comparison.right.evaluate_unknown shows right other]
    exact ⟨_, rfl⟩
  · rw [comparison.left.evaluate_unknown shows left known]
    exact ⟨_, rfl⟩

end Comparison

namespace Command

/-- The text of a failure about an operand that the snapshot lacks ends unlike the others. -/
theorem missing_message_last (place name : String) :
    s!"{place} <> {(EvalError.missing name).message}".toList.getLast? = some 'e' := by
  simp [EvalError.message, toString, List.getLast?_cons]

theorem unknown_message_last (place name : String) :
    s!"{place} <> {(EvalError.unknown name).message}".toList.getLast? ≠ some 'e' := by
  simp [EvalError.message, toString, List.getLast?_cons]

theorem mismatch_message_last (place left relation right : String) :
    s!"{place} <> '{left} {relation} {right}'".toList.getLast? ≠ some 'e' := by
  simp [toString, List.getLast?_cons]

/-- A comparison passes exactly when all signals that it names are known and the relation
holds between its values. Otherwise it fails, but never for want of a register. -/
theorem verdict_of_signals (command : Command) (comparison : Comparison) (aliases : AliasTable)
    (cs : List Char) (processor next : Processor P) (snapshot : Snapshot)
    (usable : processor.config.Usable)
    (read : Comparison.parse processor.config.arch aliases cs = .ok comparison)
    (compares : command.action = .compare comparison)
    (fresh : processor.sampled = none)
    (sampled : processor.state = (.ok snapshot, next)) :
    ∃ readout : processor.Readout,
      let verdict := command.execute snapshot processor.config.arch
      (verdict = .passed ↔
        readout.Knows comparison.left ∧ readout.Knows comparison.right ∧
          comparison.relation.holds (readout.value comparison.left)
            (readout.value comparison.right)) ∧
        (verdict ≠ .passed → ∃ message, verdict = .failed message ∧
          ∀ place name : String, message ≠ s!"{place} <> {(EvalError.missing name).message}") := by
  obtain ⟨readout, shows⟩ := Processor.state_fresh processor next snapshot fresh sampled
  refine ⟨readout, ?_⟩
  obtain ⟨_, left, right, _, first, second⟩ := (Comparison.parse_ok_iff _ _ _ _).mp read
  have inside := Operand.parse_within _ _ _ _ first
  have inside' := Operand.parse_within _ _ _ _ second
  have apart : ∀ message : String, message.toList.getLast? ≠ some 'e' →
      ∀ place name : String, message ≠ s!"{place} <> {(EvalError.missing name).message}" := by
    rintro _ other place name rfl
    exact other (missing_message_last place name)
  dsimp only
  rw [execute, compares]
  simp only [check]
  by_cases known : readout.Knows comparison.left ∧ readout.Knows comparison.right
  · rw [comparison.evaluate_known shows usable inside inside' known]
    by_cases holds : comparison.relation.holds (readout.value comparison.left)
        (readout.value comparison.right)
    · simp [holds, known]
    · simp only [holds, known, Bool.false_eq_true, ↓reduceIte, reduceCtorEq, and_false, ne_eq,
        not_false_eq_true, forall_const, true_and]
      exact ⟨_, rfl, apart _ (mismatch_message_last _ _ _ _)⟩
  · obtain ⟨name, unknown⟩ := comparison.evaluate_unknown shows usable inside inside' known
    have never : ¬ (readout.Knows comparison.left ∧ readout.Knows comparison.right ∧
        comparison.relation.holds (readout.value comparison.left)
          (readout.value comparison.right)) := fun all => known ⟨all.1, all.2.1⟩
    simp only [unknown, never, reduceCtorEq, ne_eq, not_false_eq_true, forall_const, true_and]
    exact ⟨_, rfl, apart _ (unknown_message_last _ _)⟩

/-- A core with one register of three lines, the first of them the most significant one.
Its program counter is undefined. -/
def undefinedPc : Processor Stimulus where
  probe := { signals := [("pc", ⟨[.unknown]⟩), ("r0", ⟨[.high, .low, .low]⟩)] }
  config :=
    { arch := { generalCount := 1, specialCount := 0 }
      wiring := { pc := "pc", general := "r\x7bindex\x7d", strobe := none, reversed := true } }

def topNamed : AliasTable :=
  ⟨[⟨"flags", "r0", [("top", "2")]⟩]⟩

/-- The highest line of the register is high, whatever the program counter is. -/
theorem top_line_passes :
    let comparison : Comparison := ⟨.register .general ⟨0, 2, 2⟩, .different, .constant 0⟩
    let command : Command := ⟨.compare comparison, 0, 1, "flags[top] != 0", 2⟩
    ∃ snapshot next, undefinedPc.state = (.ok snapshot, next) ∧ snapshot.pc = none ∧
      Comparison.parse undefinedPc.config.arch topNamed "flags[top] != 0".toList =
        .ok comparison ∧
      command.execute snapshot undefinedPc.config.arch = .passed := by
  intro comparison command
  have usable : undefinedPc.config.Usable := by constructor <;> decide
  have read : Comparison.parse undefinedPc.config.arch topNamed "flags[top] != 0".toList =
      .ok comparison := by rfl
  obtain ⟨snapshot, next, sampled, pc⟩ : ∃ snapshot next,
      undefinedPc.state = (.ok snapshot, next) ∧ snapshot.pc = none := ⟨_, _, rfl, rfl⟩
  refine ⟨snapshot, next, sampled, pc, read, ?_⟩
  obtain ⟨readout, passed, _⟩ := verdict_of_signals command comparison topNamed _ undefinedPc next
    snapshot usable read rfl rfl sampled
  have register : readout.register .general 0 = ⟨[.high, .low, .low]⟩ := by
    have answer := readout.register_answer .general 0 (by decide)
    exact (Except.ok.inj answer).symm
  rw [passed]
  refine ⟨?_, by nofun, ?_⟩
  · rw [readout.knows_iff rfl, Bus.known_iff, register]
    decide
  · simp only [Processor.Readout.value, comparison, register]
    decide

end Command

end CoreBench
