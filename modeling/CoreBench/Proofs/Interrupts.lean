import CoreBench.Proofs.BusNumbers
import CoreBench.Proofs.Schedule
import CoreBench.Proofs.Updates
import CoreBench.Run.Processor

/-!
What a change of interrupt lines does. The lines are read in the order of the settings, those
inside the mask take the new value, and all of them are driven in the order in which they were
read. So each line ends up at its own index, in either order, and is definite afterwards. Two
changes in a row come to one that masks what either of them masks.
-/

namespace CoreBench

namespace IrqUpdate

/-- One change for two in a row. Where both have a line, the second one counts; `wordLimit - 1`
has all bits of a word. -/
def followedBy (one two : IrqUpdate) : IrqUpdate where
  mask := one.mask ||| two.mask
  value := (one.value &&& one.mask &&& (two.mask ^^^ (wordLimit - 1))) |||
    (two.value &&& two.mask)

theorem apply_apply (one two : IrqUpdate) {lines : Nat} (narrow : lines ≤ 64)
    (inside : one.mask < 2 ^ lines) (current : Nat) :
    two.apply (one.apply current) = (one.followedBy two).apply current := by
  apply Nat.eq_of_testBit_eq
  intro index
  have word : (wordLimit - 1).testBit index = decide (index < 64) :=
    Nat.testBit_two_pow_sub_one 64 index
  have outside : 64 ≤ index → one.mask.testBit index = false := by
    intro above
    apply Nat.testBit_lt_two_pow
    exact Nat.lt_of_lt_of_le inside (Nat.pow_le_pow_right (by decide) (narrow.trans above))
  simp only [apply_test_bit, followedBy, Nat.testBit_or, Nat.testBit_and, Nat.testBit_xor, word]
  -- Beyond a word the complement has no bits, but then the first mask has none either.
  by_cases above : 64 ≤ index
  · cases two.mask.testBit index <;> simp [outside above]
  · have low : index < 64 := Nat.lt_of_not_le above
    cases one.mask.testBit index <;> cases two.mask.testBit index <;> simp [low]

end IrqUpdate

namespace Processor

/-- The interrupt lines that a change drives, by what they were. -/
def redriven {P : Type} (processor : Processor P) (update : IrqUpdate) (lines : Bus) : Bus :=
  processor.orient
    (Bus.ofNat (update.apply (processor.orient lines).driven) processor.config.arch.irqLines)

@[simp] theorem orient_orient {P : Type} (processor : Processor P) (bus : Bus) :
    processor.orient (processor.orient bus) = bus := by
  unfold orient
  split
  · exact bus.reverse_reverse
  · rfl

@[simp] theorem width_orient {P : Type} (processor : Processor P) (bus : Bus) :
    (processor.orient bus).width = bus.width := by
  unfold orient
  split
  · exact bus.width_reverse
  · rfl

/-- What a change of interrupt lines does to a core on a stimulus. The lines are numbered in
the order of the settings. -/
structure Redrives (update : IrqUpdate) (before after : Processor Stimulus)
    (lines written : Bus) : Prop where
  read_back : Probe.read after.probe before.config.wiring.irq = (.ok written, after.probe)
  width : written.width = before.config.arch.irqLines
  number : (before.orient written).toNat? = some (update.apply
    (∑ index ∈ Finset.range before.config.arch.irqLines,
      (before.orient lines).bit index * 2 ^ index))
  line : ∀ index < before.config.arch.irqLines,
    (before.orient written).levels[index]? = some (Level.ofBool
      (if update.mask.testBit index then update.value.testBit index
        else (before.orient lines).levels[index]? = some .high))
  writes : after.probe.writes = before.probe.writes ++
    [⟨before.probe.now, before.config.wiring.irq, written⟩]
  others : ∀ path, path ≠ before.config.wiring.irq →
    after.probe.value? path = before.probe.value? path
  now : after.probe.now = before.probe.now
  pending : after.probe.pending = before.probe.pending
  core : after = { before with probe := after.probe }

/-- The core after its interrupt lines were driven. -/
def drove (processor : Processor Stimulus) (lines : Bus) : Processor Stimulus :=
  { processor with probe := processor.probe.wrote processor.config.wiring.irq lines }

theorem drove_value (processor : Processor Stimulus) (lines : Bus) (path : String) :
    (processor.drove lines).probe.value? path =
      if processor.config.wiring.irq = path then some lines else processor.probe.value? path :=
  processor.probe.wrote_value _ path lines

theorem drove_lines (processor : Processor Stimulus) (lines : Bus) :
    (processor.drove lines).probe.value? processor.config.wiring.irq = some lines := by
  rw [drove_value, if_pos rfl]

variable {processor : Processor Stimulus} {update : IrqUpdate} {lines : Bus}

theorem set_irqs_declared (update : IrqUpdate)
    (declared : processor.probe.value? processor.config.wiring.irq = some lines) :
    processor.setIrqs update = (.ok (), processor.drove (processor.redriven update lines)) := by
  have present : (processor.probe.value? processor.config.wiring.irq).isSome := by
    rw [declared]
    rfl
  simp only [setIrqs, Stimulus.read_declared _ _ _ declared,
    Stimulus.write_declared _ _ _ present]
  rfl

theorem set_irqs_unknown (update : IrqUpdate)
    (missing : processor.probe.value? processor.config.wiring.irq = none) :
    processor.setIrqs update =
      (.error (.unknownSignal processor.config.wiring.irq), processor) := by
  simp only [setIrqs, Stimulus.read_eq, missing]

/-- The lines as they are read, with undefined ones as zero. -/
theorem driven_lines (narrow : processor.config.arch.irqLines ≤ 64)
    (width : lines.width = processor.config.arch.irqLines) :
    (processor.orient lines).driven < 2 ^ processor.config.arch.irqLines ∧
      (processor.orient lines).driven = ∑ index ∈ Finset.range processor.config.arch.irqLines,
        (processor.orient lines).bit index * 2 ^ index := by
  have wide : (processor.orient lines).width = processor.config.arch.irqLines := by
    rw [width_orient, width]
  have few : (processor.orient lines).width ≤ 64 := wide ▸ narrow
  constructor
  · rw [← wide]
    exact Bus.driven_lt _ few
  · rw [Bus.driven, List.take_of_length_le few, ← Bus.sum_take_eq,
      List.take_of_length_le (Nat.le_of_eq wide)]

theorem orient_redriven : processor.orient (processor.redriven update lines) =
    Bus.ofNat (update.apply (processor.orient lines).driven) processor.config.arch.irqLines :=
  processor.orient_orient _

theorem redriven_redriven {one two : IrqUpdate}
    (narrow : processor.config.arch.irqLines ≤ 64)
    (width : lines.width = processor.config.arch.irqLines)
    (inside : one.mask < 2 ^ processor.config.arch.irqLines) :
    processor.redriven two (processor.redriven one lines) =
      processor.redriven (one.followedBy two) lines := by
  have fits := one.apply_lt inside (driven_lines narrow width).1
  unfold redriven
  have word : one.apply (processor.orient lines).driven < 2 ^ 64 :=
    Nat.lt_of_lt_of_le fits (Nat.pow_le_pow_right (by decide) narrow)
  rw [orient_orient, Bus.of_nat_driven word, Nat.mod_eq_of_lt fits,
    one.apply_apply two narrow inside]

theorem drove_redrives (narrow : processor.config.arch.irqLines ≤ 64)
    (width : lines.width = processor.config.arch.irqLines)
    (inside : update.mask < 2 ^ processor.config.arch.irqLines) :
    Redrives update processor (processor.drove (processor.redriven update lines)) lines
      (processor.redriven update lines) := by
  obtain ⟨fits, total⟩ := driven_lines narrow width
  constructor
  case read_back => exact Stimulus.read_declared _ _ _ (processor.drove_lines _)
  case width => rw [redriven, width_orient, Bus.width_ofNat]
  case number =>
    have kept := update.apply_lt inside fits
    have word := Nat.lt_of_lt_of_le kept (Nat.pow_le_pow_right (by decide) narrow)
    rw [orient_redriven, ← total, Bus.of_nat_to_nat word, Nat.mod_eq_of_lt kept]
  case line =>
    intro index below
    -- No line lies beyond a word, so all of them are read.
    have here : ((processor.orient lines).driven).testBit index =
        decide ((processor.orient lines).levels[index]? = some .high) := by
      rw [Bus.driven, Bus.test_bit_sum, List.getElem?_take_of_lt (Nat.lt_of_lt_of_le below narrow)]
    rw [orient_redriven, Bus.ofNat, Bus.get_bits_of, if_pos below, update.apply_test_bit, here]
  case writes => rfl
  case others =>
    intro path other
    rw [drove_value, if_neg (Ne.symm other)]
  case now => rfl
  case pending => rfl
  case core => rfl

/-- Interrupt lines of at most 64 bits take a change whose mask is within them, each line at its
own index, and are definite afterwards; nothing else changes but the record of the one drive.
Two changes in a row drive the same lines as the change that stands for both. Without the
signal a change fails and has no effect. -/
theorem set_irqs_redrives (processor : Processor Stimulus)
    (narrow : processor.config.arch.irqLines ≤ 64) :
    let irq := processor.config.wiring.irq
    let count := processor.config.arch.irqLines
    (∀ lines, processor.probe.value? irq = some lines → lines.width = count →
      (∀ update : IrqUpdate, update.mask < 2 ^ count → ∃ after written,
        processor.setIrqs update = (.ok (), after) ∧
        Redrives update processor after lines written) ∧
      ∀ one two : IrqUpdate, one.mask < 2 ^ count → two.mask < 2 ^ count →
        ∃ middle after whole, processor.setIrqs one = (.ok (), middle) ∧
          middle.setIrqs two = (.ok (), after) ∧
          processor.setIrqs (one.followedBy two) = (.ok (), whole) ∧
          after.probe.value? irq = whole.probe.value? irq) ∧
      (processor.probe.value? irq = none → ∀ update : IrqUpdate,
        processor.setIrqs update = (.error (.unknownSignal irq), processor)) := by
  intro irq count
  refine ⟨?_, fun missing update => set_irqs_unknown update missing⟩
  intro lines declared width
  constructor
  · intro update inside
    exact ⟨_, _, set_irqs_declared update declared, drove_redrives narrow width inside⟩
  · intro one two inside _
    -- The second change reads what the first one drove.
    have second := set_irqs_declared two (processor.drove_lines (processor.redriven one lines))
    refine ⟨_, _, _, set_irqs_declared one declared, second,
      set_irqs_declared (one.followedBy two) declared, ?_⟩
    rw [drove_lines, ← redriven_redriven narrow width inside]
    exact drove_lines _ _

/-- Lines in reversed order, of which the one at index 2 is unknown and the one at index 1
floats. -/
def reversedLines : Processor Stimulus where
  probe := { now := 7, signals := [("irq", ⟨[.high, .unknown, .floating, .low]⟩)] }
  config := { arch := { irqLines := 4 }, wiring := { reversed := true } }

/-- The line at index 1 is set, and the line at index 3, which is the first one of the signal,
stays high. A second change takes both back. A stimulus without signals has no lines. -/
theorem reversed_lines_redriven :
    let unwired := reversedLines.touch fun _ => {}
    reversedLines.config.arch.irqLines ≤ 64 ∧ (2 : Nat) < 2 ^ 4 ∧ (10 : Nat) < 2 ^ 4 ∧
      unwired.setIrqs ⟨2, 7⟩ = (.error (.unknownSignal "irq"), unwired) ∧
      (∃ after written, reversedLines.setIrqs ⟨2, 7⟩ = (.ok (), after) ∧
        Redrives ⟨2, 7⟩ reversedLines after ⟨[.high, .unknown, .floating, .low]⟩ written ∧
        written = ⟨[.high, .low, .high, .low]⟩) ∧
      ∃ middle after whole, reversedLines.setIrqs ⟨2, 7⟩ = (.ok (), middle) ∧
        middle.setIrqs ⟨10, 0⟩ = (.ok (), after) ∧
        reversedLines.setIrqs ⟨10, 0⟩ = (.ok (), whole) ∧
        after.probe.value? "irq" = whole.probe.value? "irq" := by
  intro unwired
  obtain ⟨changes, _⟩ := set_irqs_redrives reversedLines (by decide)
  obtain ⟨_, missing⟩ := set_irqs_redrives unwired (by decide)
  obtain ⟨single, double⟩ := changes ⟨[.high, .unknown, .floating, .low]⟩ rfl rfl
  obtain ⟨after, written, changed, redrives⟩ := single ⟨2, 7⟩ (by decide)
  refine ⟨by decide, by decide, by decide, missing rfl ⟨2, 7⟩,
    ⟨after, written, changed, redrives, ?_⟩, ?_⟩
  · cases changed
    have back := redrives.read_back
    cases back
    rfl
  · exact double ⟨2, 7⟩ ⟨10, 0⟩ (by decide) (by decide)

end Processor

end CoreBench
