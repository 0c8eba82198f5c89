import CoreBench.Bench.Operand
import CoreBench.Bus
import Mathlib.Algebra.BigOperators.Intervals
import Mathlib.Algebra.BigOperators.Ring.Finset

/-!
The number on a bus as a sum over its lines, each with its power of two. Cutting off
low lines divides, keeping only low lines takes a remainder, and so the slice of a
register is the sum over the lines from its lowest to its highest one.
-/

namespace CoreBench

namespace Bus

/-- One for a high line, zero for any other and for a line above the top one. -/
def bit (bus : Bus) (index : Nat) : Nat :=
  if bus.levels[index]? = some .high then 1 else 0

/-- Every line is low or high, and none above the 64th is high. -/
structure Known (bus : Bus) : Prop where
  definite : ∀ level ∈ bus.levels, level = .low ∨ level = .high
  fits : ∀ index, 64 ≤ index → bus.levels[index]? ≠ some .high

theorem sum_tail (level : Level) (levels : List Level) :
    sum (level :: levels) / 2 = sum levels := by
  rw [sum]
  split <;> omega

theorem sum_drop (levels : List Level) (count : Nat) :
    sum (levels.drop count) = sum levels / 2 ^ count := by
  induction count generalizing levels with
  | zero => simp
  | succ count ih =>
      cases levels with
      | nil => simp [sum]
      | cons level levels =>
          rw [List.drop_succ_cons, ih, Nat.pow_succ', ← Nat.div_div_eq_div_mul, sum_tail]

theorem sum_take (levels : List Level) (count : Nat) :
    sum (levels.take count) = sum levels % 2 ^ count := by
  induction count generalizing levels with
  | zero => simp [sum, Nat.mod_one]
  | succ count ih =>
      cases levels with
      | nil => simp [sum]
      | cons level levels =>
          rw [List.take_succ_cons, Nat.pow_succ', Nat.mod_mul, sum_tail, ← ih, sum, sum]
          split <;> omega

theorem sum_take_eq (bus : Bus) (count : Nat) :
    sum (bus.levels.take count) = ∑ index ∈ Finset.range count, bus.bit index * 2 ^ index := by
  obtain ⟨levels⟩ := bus
  induction count generalizing levels with
  | zero => simp [sum]
  | succ count ih =>
      rw [Finset.sum_range_succ']
      cases levels with
      | nil => simp [sum, bit]
      | cons level levels =>
          have shifted : ∀ index, (Bus.mk (level :: levels)).bit (index + 1) * 2 ^ (index + 1) =
              2 * ((Bus.mk levels).bit index * 2 ^ index) := by
            intro index
            rw [bit, bit, List.getElem?_cons_succ, Nat.pow_succ']
            exact Nat.mul_left_comm _ 2 _
          simp only [shifted]
          rw [← Finset.mul_sum, ← ih levels, List.take_succ_cons, sum, Nat.add_comm]
          simp [bit]

/-- The lines from the lowest to the highest one of a range, as a number of their own. -/
theorem sum_slice (bus : Bus) (lo hi : Nat) (order : lo ≤ hi) :
    sum bus.levels / 2 ^ lo % 2 ^ (hi - lo + 1) =
      ∑ index ∈ Finset.Icc lo hi, bus.bit index * 2 ^ (index - lo) := by
  have moved : ∀ index, (Bus.mk (bus.levels.drop lo)).bit index = bus.bit (lo + index) := by
    intro index
    rw [bit, bit, List.getElem?_drop]
  calc
    sum bus.levels / 2 ^ lo % 2 ^ (hi - lo + 1) =
        sum ((bus.levels.drop lo).take (hi - lo + 1)) := by rw [sum_take, sum_drop]
    _ = ∑ index ∈ Finset.range (hi - lo + 1), bus.bit (lo + index) * 2 ^ index := by
      rw [sum_take_eq ⟨bus.levels.drop lo⟩]
      simp only [moved]
    _ = ∑ index ∈ Finset.Ico lo (hi + 1), bus.bit index * 2 ^ (index - lo) := by
      have size : hi + 1 - lo = hi - lo + 1 := by omega
      rw [Finset.sum_Ico_eq_sum_range, size]
      simp only [Nat.add_sub_cancel_left]
    _ = ∑ index ∈ Finset.Icc lo hi, bus.bit index * 2 ^ (index - lo) := by
      rw [Finset.Ico_add_one_right_eq_Icc]

theorem known_iff (bus : Bus) :
    bus.Known ↔ (bus.isDefinite && (bus.levels.drop 64).all (· == .low)) = true := by
  simp only [Bool.and_eq_true, isDefinite, List.all_eq_true, beq_iff_eq]
  have definite : ∀ level : Level, level.isDefinite = true ↔ level = .low ∨ level = .high := by
    intro level
    cases level <;> simp [Level.isDefinite]
  simp only [definite]
  constructor
  · intro known
    refine ⟨known.definite, ?_⟩
    intro level member
    obtain ⟨index, found⟩ := List.mem_iff_getElem?.mp member
    rw [List.getElem?_drop] at found
    rcases known.definite level (List.mem_of_getElem? found) with low | high
    · exact low
    · exact absurd (high ▸ found) (known.fits (64 + index) (Nat.le_add_right 64 index))
  · rintro ⟨definite, low⟩
    refine ⟨definite, ?_⟩
    intro index above found
    have member : Level.high ∈ bus.levels.drop 64 := by
      apply List.mem_of_getElem? (i := index - 64)
      rw [List.getElem?_drop, Nat.add_sub_cancel' above]
      exact found
    exact absurd (low _ member) (by decide)

/-- A bus has a number exactly when it is known, and that is the sum over its lines. -/
theorem to_nat_eq_some_iff (bus : Bus) (value : Nat) :
    bus.toNat? = some value ↔
      bus.Known ∧ value = ∑ index ∈ Finset.range bus.width, bus.bit index * 2 ^ index := by
  have whole : sum bus.levels = ∑ index ∈ Finset.range bus.width, bus.bit index * 2 ^ index := by
    rw [← sum_take_eq, width, List.take_length]
  rw [toNat?, known_iff, ← whole]
  split <;> simp [*, eq_comm]

theorem to_nat_eq_none_iff (bus : Bus) : bus.toNat? = none ↔ ¬ bus.Known := by
  rw [toNat?, known_iff]
  split <;> simp [*]

end Bus

theorem low_mask_and (value bits : Nat) (bound : bits ≤ 64) :
    value &&& lowMask bits = value % 2 ^ bits := by
  rw [lowMask, Nat.min_eq_left bound, Nat.one_shiftLeft, Nat.and_two_pow_sub_one_eq_mod]

/-- The slice of a known register is the sum over the lines of the slice. -/
theorem Slice.extract_known (slice : Slice) (bus : Bus) (value : Nat)
    (known : bus.toNat? = some value) (order : slice.lo ≤ slice.hi) (bound : slice.hi < 64) :
    slice.extract value =
      ∑ index ∈ Finset.Icc slice.lo slice.hi, bus.bit index * 2 ^ (index - slice.lo) := by
  have number : value = Bus.sum bus.levels := by
    rw [Bus.toNat?] at known
    split at known
    · exact (Option.some.inj known).symm
    · cases known
  rw [← bus.sum_slice _ _ order, Slice.extract, low_mask_and _ _ (by omega),
    Nat.shiftRight_eq_div_pow, number]

end CoreBench
