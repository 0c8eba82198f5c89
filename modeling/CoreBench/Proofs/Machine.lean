import CoreBench.Bus
import CoreBench.Proofs.Operands

/-!
Words as the machine computes with them. An operation that the machine stops at, instead of
giving a wrong number, has no result here. What a bench evaluates is computed once more with
these operations, and always has a result: that of the model.
-/

namespace CoreBench

namespace Machine

def difference? (a b : Nat) : Option Nat :=
  if b ≤ a then some (a - b) else none

def sum? (limit a b : Nat) : Option Nat :=
  if a + b < limit then some (a + b) else none

def quotient? (a b : Nat) : Option Nat :=
  if b = 0 then none else some (a / b)

/-- One, shifted to the left. -/
def power? (amount : Nat) : Option Nat :=
  if amount < 64 then some (1 <<< amount) else none

def shiftRight? (value amount : Nat) : Option Nat :=
  if amount < 64 then some (value >>> amount) else none

/-- The number with the low `bits` bits set. -/
def mask? (bits : Nat) : Option Nat :=
  if 64 ≤ bits then some (wordLimit - 1)
  else (power? bits).bind fun power => difference? power 1

/-- The part of a text from one place to another. -/
def part? (cs : List Char) (first last : Nat) : Option (List Char) :=
  if first ≤ last ∧ last ≤ cs.length then some ((cs.take last).drop first) else none

theorem part_eq (front middle back : List Char) :
    part? (front ++ (middle ++ back)) front.length (front ++ middle).length = some middle := by
  have order : front.length ≤ (front ++ middle).length ∧
      (front ++ middle).length ≤ (front ++ (middle ++ back)).length := by
    simp only [List.length_append]
    omega
  rw [part?, if_pos order, ← List.append_assoc, List.take_left, List.drop_left]

theorem mask_eq (bits : Nat) : mask? bits = some (lowMask bits) := by
  rw [mask?, lowMask]
  split
  next wide => rw [Nat.min_eq_right wide, wordLimit_eq]
  next narrow =>
    have positive : 1 ≤ 1 <<< bits := by
      rw [Nat.one_shiftLeft]
      exact Nat.one_le_two_pow
    rw [power?, if_pos (by omega), Option.bind_some, difference?, if_pos positive,
      Nat.min_eq_left (by omega)]

end Machine

open Machine

namespace Bus

/-- Sets the bits of the high lines, from the line `index` on, in the number of the lines
below. -/
def gather? : Nat → Nat → List Level → Option Nat
  | _, value, [] => some value
  | index, value, level :: rest =>
      if level = .high then
        (power? index).bind fun power => gather? (index + 1) (value ||| power) rest
      else gather? (index + 1) value rest

/-- The same for lines that have to be definite. None from the 64th on may be high. -/
def number? : Nat → Nat → List Level → Option (Option Nat)
  | _, value, [] => some (some value)
  | index, value, level :: rest =>
      match level.toBool? with
      | none => some none
      | some false => number? (index + 1) value rest
      | some true =>
          if 64 ≤ index then some none
          else (power? index).bind fun power => number? (index + 1) (value ||| power) rest

/-- `count` lines of a number from the line `index` on, each from the number shifted down. -/
def spread? (value : Nat) : Nat → Nat → Option (List Level)
  | _, 0 => some []
  | index, count + 1 => do
      let shifted ← if index < 64 then shiftRight? value index else some 0
      let rest ← spread? value (index + 1) count
      return Level.ofBool (shifted % 2 = 1) :: rest

theorem set_power (index value : Nat) (below : value < 1 <<< index) :
    value ||| 1 <<< index = value + 1 <<< index := by
  rw [Nat.one_shiftLeft] at below ⊢
  have set := Nat.two_pow_add_eq_or_of_lt below 1
  rw [Nat.mul_one] at set
  rw [Nat.or_comm, ← set, Nat.add_comm]

theorem power_succ (index : Nat) : 1 <<< (index + 1) = 1 <<< index * 2 := by
  rw [Nat.one_shiftLeft, Nat.one_shiftLeft, Nat.pow_succ]

/-- What the first of some lines adds to the number of the lines below. -/
theorem sum_from (index : Nat) (level : Level) (rest : List Level) :
    1 <<< index * sum (level :: rest) =
      (if level = .high then 1 <<< index else 0) + 1 <<< (index + 1) * sum rest := by
  rw [sum, Nat.mul_add, ← Nat.mul_assoc, ← power_succ]
  split <;> simp

theorem gather_sum (index value : Nat) (levels : List Level) (below : value < 1 <<< index)
    (fits : index + levels.length ≤ 64) :
    gather? index value levels = some (value + 1 <<< index * sum levels) := by
  induction levels generalizing index value with
  | nil => rfl
  | cons level rest ih =>
      rw [List.length_cons] at fits
      have next := power_succ index
      rw [gather?, sum_from]
      split
      next high =>
        rw [power?, if_pos (by omega), Option.bind_some, set_power index value below,
          ih _ _ (by omega) (by omega), Nat.add_assoc]
      next low => rw [ih _ _ (by omega) (by omega), Nat.zero_add]

theorem gather_driven (bus : Bus) : gather? 0 0 (bus.levels.take 64) = some bus.driven := by
  have short : (bus.levels.take 64).length ≤ 64 := List.length_take_le 64 bus.levels
  have gathered := gather_sum 0 0 (bus.levels.take 64) (by decide) (by omega)
  rw [gathered, driven]
  simp

theorem number_sum (index value : Nat) (levels : List Level) (below : value < 1 <<< index) :
    number? index value levels =
      some (if levels.all Level.isDefinite && (levels.drop (64 - index)).all (· == .low) then
        some (value + 1 <<< index * sum levels) else none) := by
  induction levels generalizing index value with
  | nil => simp [number?, sum]
  | cons level rest ih =>
      have next := power_succ index
      -- From the 64th line on nothing is left out.
      have above : 64 ≤ index → (level :: rest).drop (64 - index) = level :: rest ∧
          rest.drop (64 - (index + 1)) = rest := by
        intro wide
        rw [Nat.sub_eq_zero_of_le wide, Nat.sub_eq_zero_of_le (by omega)]
        exact ⟨rfl, rfl⟩
      have inside : index < 64 →
          (level :: rest).drop (64 - index) = rest.drop (64 - (index + 1)) := by
        intro narrow
        have step : 64 - index = (64 - (index + 1)) + 1 := by omega
        rw [step, List.drop_succ_cons]
      rw [sum_from]
      cases level with
      | unknown => rfl
      | floating => rfl
      | low =>
          have rest_of := ih (index + 1) value (by omega)
          simp only [number?, Level.toBool?, rest_of, List.all_cons, Level.isDefinite,
            Bool.true_and, reduceCtorEq, ↓reduceIte, Nat.zero_add]
          by_cases wide : 64 ≤ index
          · rw [(above wide).1, (above wide).2, List.all_cons]
            rfl
          · rw [inside (Nat.lt_of_not_le wide)]
      | high =>
          by_cases wide : 64 ≤ index
          · simp only [number?, Level.toBool?, wide, ↓reduceIte, above wide, List.all_cons]
            simp
          · have rest_of := ih (index + 1) (value + 1 <<< index) (by omega)
            simp only [number?, Level.toBool?, wide, ↓reduceIte, power?, Nat.lt_of_not_le wide,
              Option.bind_some, set_power index value below, rest_of, List.all_cons,
              Level.isDefinite, Bool.true_and, inside (Nat.lt_of_not_le wide), Nat.add_assoc]

theorem number_to_nat (bus : Bus) : number? 0 0 bus.levels = some bus.toNat? := by
  rw [number_sum 0 0 bus.levels (by decide), toNat?, isDefinite]
  simp

theorem spread_bits (value index count : Nat) (fits : index + count ≤ 64 ∨ value < wordLimit) :
    spread? value index count = some (bitsOf count (value >>> index)) := by
  induction count generalizing index with
  | zero => rfl
  | succ count ih =>
      rw [spread?, ih (index + 1) (by omega), bitsOf, Nat.shiftRight_succ]
      split
      next narrow =>
        rw [shiftRight?, if_pos narrow]
        rfl
      next wide =>
        -- Where a word cannot be shifted any further, nothing of it is left.
        have gone : value >>> index = 0 := by
          apply Nat.shiftRight_eq_zero
          rw [wordLimit_eq, Nat.one_shiftLeft] at fits
          exact Nat.lt_of_lt_of_le (fits.resolve_left (by omega))
            (Nat.pow_le_pow_right (by decide) (Nat.le_of_not_lt wide))
        rw [gone]
        rfl

end Bus

def Slice.extract? (slice : Slice) (value : Nat) : Option Nat := do
  let shifted ← shiftRight? value slice.lo
  let span ← difference? slice.hi slice.lo
  let width ← sum? (1 <<< 32) span 1
  let mask ← mask? width
  return shifted &&& mask

theorem Slice.extract_eq (slice : Slice) (value : Nat) (order : slice.lo ≤ slice.hi)
    (inside : slice.hi < 64) : slice.extract? value = some (slice.extract value) := by
  have small : slice.hi - slice.lo + 1 < 1 <<< 32 := by
    have : 64 < 1 <<< 32 := by decide
    omega
  have lower : slice.lo < 64 := Nat.lt_of_le_of_lt order inside
  simp only [extract?, shiftRight?, if_pos lower, difference?, if_pos order, sum?, if_pos small,
    mask_eq, Option.bind_eq_bind, Option.bind_some]
  rfl

def Operand.evaluate? (operand : Operand) (snapshot : Snapshot) :
    Option (Except EvalError Nat) :=
  match operand with
  | .register file slice =>
      match (snapshot.registers file)[slice.index]? with
      | some (some value) => (slice.extract? value).map .ok
      | _ => some (operand.evaluate snapshot)
  | _ => some (operand.evaluate snapshot)

theorem Operand.evaluate_eq (operand : Operand) (snapshot : Snapshot) (arch : Arch)
    (narrow : arch.wordSize ≤ 64) (within : operand.Within arch) :
    operand.evaluate? snapshot = some (operand.evaluate snapshot) := by
  cases operand with
  | constant value => rfl
  | programCounter => rfl
  | register file slice =>
      obtain ⟨_, order, inside⟩ := within
      simp only [evaluate?, evaluate]
      split
      next value found =>
        rw [slice.extract_eq value order (Nat.lt_of_lt_of_le inside narrow), found]
        rfl
      next => rfl

def Comparison.evaluate? (comparison : Comparison) (snapshot : Snapshot) :
    Option (Except EvalError (Nat × Nat)) := do
  match ← comparison.left.evaluate? snapshot with
  | .error error => return .error error
  | .ok a =>
      match ← comparison.right.evaluate? snapshot with
      | .error error => return .error error
      | .ok b => return .ok (a, b)

/-- The operands are such as reading them admits. -/
def Comparison.Within (arch : Arch) (comparison : Comparison) : Prop :=
  comparison.left.Within arch ∧ comparison.right.Within arch

theorem Comparison.evaluate_eq (comparison : Comparison) (snapshot : Snapshot) (arch : Arch)
    (narrow : arch.wordSize ≤ 64) (within : comparison.Within arch) :
    comparison.evaluate? snapshot = some (comparison.evaluate snapshot) := by
  rw [evaluate?, comparison.left.evaluate_eq snapshot arch narrow within.1,
    comparison.right.evaluate_eq snapshot arch narrow within.2, evaluate]
  cases comparison.left.evaluate snapshot with
  | error error => rfl
  | ok a => cases comparison.right.evaluate snapshot <;> rfl

/-- What comes of a command, once its operands have been evaluated. -/
def Command.execute? (command : Command) (snapshot : Snapshot) (arch : Arch) : Option Outcome :=
  match command.action with
  | .compare comparison =>
      (comparison.evaluate? snapshot).map fun _ => command.check comparison snapshot arch
  | _ => some (command.execute snapshot arch)

def Command.Within (arch : Arch) (command : Command) : Prop :=
  ∀ comparison, command.action = .compare comparison → comparison.Within arch

theorem Command.execute_eq (command : Command) (snapshot : Snapshot) (arch : Arch)
    (narrow : arch.wordSize ≤ 64) (within : command.Within arch) :
    command.execute? snapshot arch = some (command.execute snapshot arch) := by
  rw [execute?, execute]
  cases action : command.action with
  | finish => rfl
  | interrupt update => rfl
  | compare comparison =>
      dsimp only
      rw [comparison.evaluate_eq snapshot arch narrow (within comparison action)]
      rfl

end CoreBench
