import CoreBench.Bench.Command
import CoreBench.Proofs.BitSums
import CoreBench.Proofs.Numerals
import CoreBench.Proofs.Trimming
import Mathlib.Data.List.Infix

/-!
Changes of interrupt lines. A change is written as two numbers with an arrow between them, the
mask and the value, and is read when the mask has no other lines than those of the core. It gives
each line of the mask its bit of the value and leaves all other lines as they are.
-/

namespace CoreBench

namespace Text

/-- A number that a word holds, with white space around it. -/
def Numeral (cs : List Char) (number : Nat) : Prop :=
  ∃ inner, Padded inner cs ∧ Spells inner number ∧ number < wordLimit

theorem numeral_trim_iff (cs : List Char) (number : Nat) :
    numeral? (trim cs) = some number ↔ Numeral cs number := by
  rw [numeral_iff, ← wordLimit_eq]
  constructor
  · rintro ⟨spelled, fits⟩
    exact ⟨trim cs, padded_trim cs, spelled, fits⟩
  · rintro ⟨inner, padded, spelled, fits⟩
    have solid : ∀ c ∈ inner, isBlank c = false :=
      fun c member => alphanum_solid c (spelled_alphanum inner number spelled c member)
    rw [padded.trim_eq, trim_solid inner solid]
    exact ⟨spelled, fits⟩

theorem Numeral.fits {cs : List Char} {number : Nat} (numeral : Numeral cs number) :
    number < wordLimit := by
  obtain ⟨_, _, _, fits⟩ := numeral
  exact fits

/-- No sign stands in a number or around it. -/
theorem Numeral.absent {cs : List Char} {number : Nat} (numeral : Numeral cs number) :
    '-' ∉ cs := by
  obtain ⟨inner, padded, spelled, _⟩ := numeral
  rw [padded.solid_mem_iff '-' (by decide)]
  intro member
  exact absurd (spelled_alphanum inner number spelled '-' member) (by decide)

end Text

theorem low_mask_test_bit (bits index : Nat) :
    (lowMask bits).testBit index = decide (index < min bits 64) := by
  rw [lowMask, Nat.one_shiftLeft, Nat.testBit_two_pow_sub_one]

/-- The bits of a number are below any power of two that it is below. -/
theorem test_bit_below {number bits index : Nat} (fits : number < 2 ^ bits)
    (set : number.testBit index = true) : index < bits :=
  (Nat.pow_lt_pow_iff_right (by decide)).mp
    (Nat.lt_of_le_of_lt (Nat.ge_two_pow_of_testBit set) fits)

/-- A mask is left alone when it has no other lines than those of the core. -/
theorem Arch.irq_mask_iff (arch : Arch) {mask : Nat} (fits : mask < wordLimit) :
    mask &&& arch.irqMask = mask ↔ ∀ index, mask.testBit index = true → index < arch.irqLines := by
  rw [wordLimit_eq, Nat.one_shiftLeft] at fits
  constructor
  · intro kept index set
    rw [← kept, Nat.testBit_and, Arch.irqMask, low_mask_test_bit] at set
    have inside := of_decide_eq_true (Bool.and_eq_true_iff.mp set).2
    exact (Nat.lt_min.mp inside).1
  · intro inside
    apply Nat.eq_of_testBit_eq
    intro index
    rw [Nat.testBit_and, Arch.irqMask, low_mask_test_bit]
    cases set : mask.testBit index with
    | false => rfl
    | true =>
        have below := Nat.lt_min.mpr ⟨inside index set, test_bit_below fits set⟩
        rw [decide_eq_true below, Bool.true_and]

namespace IrqUpdate

theorem parse_ok_iff (arch : Arch) (cs : List Char) (update : IrqUpdate) :
    parse arch cs = .ok update ↔
      ∃ left right, cs = left ++ '-' :: '>' :: right ∧
        Text.Numeral left update.mask ∧ Text.Numeral right update.value ∧
        ∀ index, update.mask.testBit index = true → index < arch.irqLines := by
  constructor
  · intro read
    rw [parse] at read
    split at read
    next => cases read
    next left right found =>
      have whole := Text.cut_eq_append ['-', '>'] cs left right found
      split at read
      next mask value masked valued =>
        split at read
        next kept =>
          cases read
          have numeral := (Text.numeral_trim_iff left mask).mp masked
          exact ⟨left, right, by simpa using whole, numeral,
            (Text.numeral_trim_iff right value).mp valued,
            (arch.irq_mask_iff numeral.fits).mp kept⟩
        next => cases read
      next => cases read
  · rintro ⟨left, right, rfl, masked, valued, inside⟩
    have found : Text.cut ['-', '>'] (left ++ '-' :: '>' :: right) = some (left, right) :=
      Text.cut_append '-' ['>'] left right masked.absent
    have kept := (arch.irq_mask_iff masked.fits).mpr inside
    rw [parse, found]
    simp only [(Text.numeral_trim_iff left update.mask).mpr masked,
      (Text.numeral_trim_iff right update.value).mpr valued, kept, ↓reduceIte]

/-- Each line of the mask takes the value at its own index. -/
theorem apply_test_bit (update : IrqUpdate) (current index : Nat) :
    (update.apply current).testBit index =
      if update.mask.testBit index then update.value.testBit index
      else current.testBit index := by
  simp only [apply, Nat.testBit_or, Nat.testBit_xor, Nat.testBit_and]
  cases update.mask.testBit index <;> simp

theorem apply_lt (update : IrqUpdate) {current lines : Nat} (inside : update.mask < 2 ^ lines)
    (fits : current < 2 ^ lines) : update.apply current < 2 ^ lines :=
  Nat.or_lt_two_pow (Nat.xor_lt_two_pow fits (Nat.and_lt_two_pow _ inside))
    (Nat.lt_of_le_of_lt Nat.and_le_left inside)

/-- Making a change once more changes nothing. -/
theorem apply_twice (update : IrqUpdate) (current : Nat) :
    update.apply (update.apply current) = update.apply current := by
  apply Nat.eq_of_testBit_eq
  intro index
  rw [apply_test_bit]
  split
  next set => rw [apply_test_bit, if_pos set]
  next => rfl

/-- A text is read as a change exactly when its first arrow stands between the numbers of the mask
and of the value and the core has all lines of the mask. The lines of the mask then take their bits
of the value, whatever they were, and no other line changes, so making the change once more
changes nothing. -/
theorem parse_exactly_masked (arch : Arch) (cs : List Char) (update : IrqUpdate) :
    (parse arch cs = .ok update ↔
      ∃ left right, cs = left ++ ("->".toList ++ right) ∧ ¬ "->".toList <:+: left ∧
        Text.Numeral left update.mask ∧ Text.Numeral right update.value ∧
        ∀ index, update.mask.testBit index = true → index < arch.irqLines) ∧
    (parse arch cs = .ok update → ∀ current < wordLimit,
      update.apply current < wordLimit ∧
      (∀ index, update.mask.testBit index = false →
        (update.apply current).testBit index = current.testBit index) ∧
      (∀ index, arch.irqLines ≤ index →
        (update.apply current).testBit index = current.testBit index) ∧
      (∀ index, update.mask.testBit index = true →
        (update.apply current).testBit index = update.value.testBit index) ∧
      update.apply (update.apply current) = update.apply current) := by
  constructor
  · rw [parse_ok_iff]
    constructor
    · rintro ⟨left, right, rfl, masked, valued, inside⟩
      refine ⟨left, right, rfl, ?_, masked, valued, inside⟩
      intro found
      exact masked.absent (found.subset List.mem_cons_self)
    · rintro ⟨left, right, rfl, _, masked, valued, inside⟩
      exact ⟨left, right, rfl, masked, valued, inside⟩
  · intro read current fits
    obtain ⟨_, _, _, masked, _, inside⟩ := (parse_ok_iff arch cs update).mp read
    have small := masked.fits
    rw [wordLimit_eq, Nat.one_shiftLeft] at fits small ⊢
    refine ⟨update.apply_lt small fits, ?_, ?_, ?_, update.apply_twice current⟩
    · intro index outside
      simp [apply_test_bit, outside]
    · intro index above
      have outside : update.mask.testBit index = false := by
        rw [Bool.eq_false_iff]
        intro set
        exact absurd (inside index set) (Nat.not_lt.mpr above)
      simp [apply_test_bit, outside]
    · intro index set
      simp [apply_test_bit, set]

/-- The first and the third line are changed, the third one to high. The value may have bits for
lines that are not there. -/
theorem spaced_exactly_masked :
    let update : IrqUpdate := ⟨5, 252⟩
    parse { irqLines := 3 } " 0X05 ->0252".toList = .ok update ∧ (249 : Nat) < wordLimit ∧
      update.apply 249 = 252 ∧
      (update.apply 249).testBit 1 = Nat.testBit 249 1 ∧
      (update.apply 249).testBit 7 = Nat.testBit 249 7 ∧
      (update.apply 249).testBit 2 = Nat.testBit 252 2 ∧
      update.apply (update.apply 249) = update.apply 249 := by
  intro update
  have read : parse { irqLines := 3 } " 0X05 ->0252".toList = .ok update := by rfl
  obtain ⟨_, applied⟩ := parse_exactly_masked { irqLines := 3 } " 0X05 ->0252".toList update
  obtain ⟨_, outside, above, masked, twice⟩ := applied read 249 (by decide)
  exact ⟨read, by decide, by decide, outside 1 (by decide), above 7 (by decide),
    masked 2 (by decide), twice⟩

end IrqUpdate

end CoreBench
