import CoreBench.Proofs.BitSums
import CoreBench.Proofs.Machine

/-!
Numbers put on a bus and read back. The bits of the number on a bus are at the high lines, so a
known bus has a number that fits into a word and is made of it again, and a word is read back from
a bus of any width without the bits that the bus is too narrow for.
-/

namespace CoreBench

/-- The level of a line with a resistor to ground, which only a driver can lift. -/
def Level.pulledDown : Level → Level
  | high => high
  | low | unknown | floating => low

namespace Bus

/-- The bus with every unknown or floating line at zero. -/
def pulledDown (bus : Bus) : Bus :=
  ⟨bus.levels.map Level.pulledDown⟩

theorem get_bits_of (width value index : Nat) :
    (bitsOf width value)[index]? =
      if index < width then some (Level.ofBool (value.testBit index)) else none := by
  induction width generalizing value index with
  | zero => simp [bitsOf]
  | succ width ih =>
      cases index with
      | zero => simp [bitsOf, Nat.testBit_zero]
      | succ index => simp [bitsOf, ih, Nat.testBit_succ]

/-- The bits of the number on a bus are at the high lines. -/
theorem test_bit_sum (levels : List Level) (index : Nat) :
    (sum levels).testBit index = decide (levels[index]? = some .high) := by
  induction levels generalizing index with
  | nil => simp [sum]
  | cons level levels ih =>
      cases index with
      | zero =>
          rw [Nat.testBit_zero, sum, Nat.add_mul_mod_self_left]
          cases level <;> rfl
      | succ index => rw [Nat.testBit_succ, sum_tail, ih, List.getElem?_cons_succ]

theorem sum_lt (levels : List Level) : sum levels < 2 ^ levels.length := by
  have whole := sum_take levels levels.length
  rw [List.take_length] at whole
  rw [whole]
  exact Nat.mod_lt _ (Nat.two_pow_pos _)

/-- Definite lines are those of their number. -/
theorem bits_of_sum (levels : List Level) (definite : ∀ level ∈ levels, level = .low ∨ level = .high) :
    bitsOf levels.length (sum levels) = levels := by
  induction levels with
  | nil => rfl
  | cons level levels ih =>
      obtain ⟨first, definite⟩ := List.forall_mem_cons.mp definite
      rw [List.length_cons, bitsOf, sum_tail, ih definite, sum, Nat.add_mul_mod_self_left]
      rcases first with rfl | rfl <;> rfl

theorem sum_pulled_down (levels : List Level) : sum (levels.map Level.pulledDown) = sum levels := by
  induction levels with
  | nil => rfl
  | cons level levels ih =>
      rw [List.map_cons, sum, sum, ih]
      cases level <;> rfl

/-- The driven bits are the low word of the number on the bus. -/
theorem driven_eq (bus : Bus) : bus.driven = sum bus.levels % 2 ^ 64 :=
  sum_take bus.levels 64

theorem test_bit_driven (bus : Bus) (index : Nat) :
    bus.driven.testBit index = decide (index < 64 ∧ bus.levels[index]? = some .high) := by
  rw [driven_eq, Nat.testBit_mod_two_pow, test_bit_sum, Bool.decide_and]

theorem driven_lt (bus : Bus) (narrow : bus.width ≤ 64) : bus.driven < 2 ^ bus.width := by
  rw [driven, List.take_of_length_le narrow]
  exact sum_lt bus.levels

variable {bus : Bus}

theorem Known.sum_lt (known : bus.Known) : sum bus.levels < 2 ^ 64 := by
  apply Nat.lt_pow_two_of_testBit
  intro index above
  rw [test_bit_sum, decide_eq_false_iff_not]
  exact known.fits index above

theorem Known.is_definite (known : bus.Known) : bus.isDefinite = true :=
  (Bool.and_eq_true_iff.mp (bus.known_iff.mp known)).1

theorem Known.to_nat (known : bus.Known) : bus.toNat? = some (sum bus.levels) :=
  if_pos (bus.known_iff.mp known)

theorem Known.driven_eq (known : bus.Known) : bus.driven = sum bus.levels := by
  rw [bus.driven_eq, Nat.mod_eq_of_lt known.sum_lt]

theorem Known.of_nat (known : bus.Known) : ofNat (sum bus.levels) bus.width = bus := by
  rw [ofNat, width, bits_of_sum bus.levels known.definite]

/-- What keeps a bus from having a number. -/
theorem not_known_iff (bus : Bus) :
    ¬ bus.Known ↔ ∃ index level, bus.levels[index]? = some level ∧
      (level = .unknown ∨ level = .floating ∨ (64 ≤ index ∧ level = .high)) := by
  constructor
  · intro unknown
    by_contra none
    apply unknown
    constructor
    · intro level member
      obtain ⟨index, found⟩ := List.mem_iff_getElem?.mp member
      cases level with
      | low => exact .inl rfl
      | high => exact .inr rfl
      | unknown => exact absurd ⟨index, _, found, .inl rfl⟩ none
      | floating => exact absurd ⟨index, _, found, .inr (.inl rfl)⟩ none
    · intro index above found
      exact none ⟨index, _, found, .inr (.inr ⟨above, rfl⟩)⟩
  · rintro ⟨index, level, found, wrong⟩ known
    rcases wrong with rfl | rfl | ⟨above, rfl⟩
    · exact absurd (known.definite _ (List.mem_of_getElem? found)) (by decide)
    · exact absurd (known.definite _ (List.mem_of_getElem? found)) (by decide)
    · exact known.fits index above found

variable {value : Nat}

theorem of_nat_known (small : value < 2 ^ 64) (width : Nat) : (ofNat value width).Known where
  definite := by
    intro level member
    obtain ⟨index, found⟩ := List.mem_iff_getElem?.mp member
    simp only [ofNat, get_bits_of, Option.ite_none_right_eq_some, Option.some.injEq] at found
    rw [← found.2]
    cases value.testBit index with
    | false => exact .inl rfl
    | true => exact .inr rfl
  fits := by
    intro index above found
    have none : value.testBit index = false :=
      Nat.testBit_lt_two_pow (Nat.lt_of_lt_of_le small (Nat.pow_le_pow_right (by decide) above))
    simp [ofNat, get_bits_of, none, Level.ofBool] at found

theorem of_nat_to_nat (small : value < 2 ^ 64) (width : Nat) :
    (ofNat value width).toNat? = some (value % 2 ^ width) := by
  rw [(of_nat_known small width).to_nat, ofNat, sum_bitsOf, Nat.one_shiftLeft]

theorem of_nat_driven (small : value < 2 ^ 64) (width : Nat) :
    (ofNat value width).driven = value % 2 ^ width := by
  rw [(of_nat_known small width).driven_eq, ofNat, sum_bitsOf, Nat.one_shiftLeft]

/-- A bus of a word or less has a number once nothing on it is unknown or floating. -/
theorem pulled_down_to_nat (narrow : bus.width ≤ 64) :
    bus.pulledDown.toNat? = some (sum bus.levels) := by
  have known : bus.pulledDown.Known := by
    constructor
    · intro level member
      obtain ⟨plain, _, rfl⟩ := List.mem_map.mp member
      cases plain <;> simp [Level.pulledDown]
    · intro index above found
      have inside := (List.getElem?_eq_some_iff.mp found).1
      rw [pulledDown, List.length_map] at inside
      exact absurd narrow (by rw [width]; omega)
  rw [known.to_nat, pulledDown, sum_pulled_down]

/-- Cutting a bus to a word leaves its low lines and adds none. -/
theorem low_levels (bus : Bus) (fill : Level) :
    (bus.resize (min bus.width 64) fill).levels = bus.levels.take 64 := by
  have none : min bus.width 64 - bus.width = 0 := by omega
  rw [resize, none, List.replicate_zero, List.append_nil, Nat.min_comm, width,
    ← List.take_eq_take_min]

/-- Every word goes onto a bus of any width and is read back without the bits that have no line.
A bus has no number exactly when a line is unknown or floating or a line above the 64th is high;
otherwise it is driven with its number and is the bus of that number. The driven bits are the
number of the low 64 lines with unknown and floating ones at zero. Computed one line at a time in
words, with shifts that stay inside of a word, all of these come out the same. -/
theorem converts_without_loss :
    (∀ value < wordLimit, ∀ width,
      (ofNat value width).width = width ∧ (ofNat value width).isDefinite = true ∧
      (ofNat value width).toNat? = some (value % 2 ^ width) ∧
      (ofNat value width).driven = value % 2 ^ width ∧
      spread? value 0 width = some (ofNat value width).levels) ∧
    ∀ bus : Bus,
      (bus.toNat? = none ↔ ∃ index level, bus.levels[index]? = some level ∧
        (level = .unknown ∨ level = .floating ∨ (64 ≤ index ∧ level = .high))) ∧
      (∀ value, bus.toNat? = some value →
        value < wordLimit ∧ bus.driven = value ∧ ofNat value bus.width = bus) ∧
      (∀ fill, (bus.resize (min bus.width 64) fill).pulledDown.toNat? = some bus.driven) ∧
      (∀ index, bus.driven.testBit index =
        decide (index < 64 ∧ bus.levels[index]? = some .high)) ∧
      number? 0 0 bus.levels = some bus.toNat? ∧
      gather? 0 0 (bus.levels.take 64) = some bus.driven := by
  have word : wordLimit = 2 ^ 64 := by rw [wordLimit_eq, Nat.one_shiftLeft]
  constructor
  · intro value small width
    have spread := spread_bits value 0 width (.inr small)
    rw [word] at small
    exact ⟨width_ofNat value width, (of_nat_known small width).is_definite,
      of_nat_to_nat small width, of_nat_driven small width, spread⟩
  · intro bus
    refine ⟨?_, ?_, ?_, bus.test_bit_driven, bus.number_to_nat, bus.gather_driven⟩
    · rw [bus.to_nat_eq_none_iff, bus.not_known_iff]
    · intro value found
      have known := ((bus.to_nat_eq_some_iff value).mp found).1
      obtain rfl : sum bus.levels = value := Option.some.inj (known.to_nat.symm.trans found)
      exact ⟨word ▸ known.sum_lt, known.driven_eq, known.of_nat⟩
    · intro fill
      rw [pulled_down_to_nat (by rw [width_resize]; omega), low_levels, driven]

/-- All bits of a word go onto 70 lines. Of 66 lines the first and the third are high, and the two
lines above a word are low. -/
theorem wide_converts :
    let word := wordLimit - 1
    let bus : Bus := ⟨[.high, .low, .high] ++ List.replicate 63 .low⟩
    word < wordLimit ∧ (ofNat word 70).toNat? = some (word % 2 ^ 70) ∧
      spread? word 0 70 = some (ofNat word 70).levels ∧
      bus.toNat? = some 5 ∧ bus.driven = 5 ∧ ofNat 5 66 = bus := by
  obtain ⟨words, buses⟩ := converts_without_loss
  obtain ⟨_, _, number, _, spread⟩ := words (wordLimit - 1) (by decide) 70
  obtain ⟨_, defined, _⟩ := buses ⟨[.high, .low, .high] ++ List.replicate 63 .low⟩
  obtain ⟨_, driven, made⟩ := defined 5 (by decide +kernel)
  exact ⟨by decide, number, spread, by decide +kernel, driven, made⟩

end Bus

end CoreBench
