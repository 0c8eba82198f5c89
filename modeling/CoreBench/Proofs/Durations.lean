import CoreBench.Proofs.Numerals
import CoreBench.Proofs.Timescale
import Mathlib.Algebra.Ring.Nat

/-!
What a length of time counts. It is the number in front times the femtoseconds of the unit, where
every unit is a thousand of the one before. The number may be of any length, because only the
product has to fit into a word.
-/

namespace CoreBench.TimeUnit

/-- The units by name, each a thousand times the one before. -/
def names : List String :=
  ["fs", "ps", "ns", "us", "ms", "s"]

/-- The femtoseconds of a unit by its name, which may be written in either case. -/
inductive Named : List Char → Nat → Prop where
  | unnamed : Named [] 1
  | named {name : List Char} (power : Nat)
      (found : names[power]? = some (String.ofList (Text.lower name))) :
      Named name (1000 ^ power)

/-- How many units there are. A number that is left out is 1. -/
inductive Counted : List Char → Nat → Prop where
  | single : Counted [] 1
  | decimal {digits : List Char} {count : Nat} (number : Text.Decimal digits count) :
      Counted digits count

theorem units_names : units = ("", 1) :: names.mapIdx fun power name => (name, 1000 ^ power) := by
  decide

theorem lookup_names : ∀ power < names.length,
    (names[power]?).all (fun name => units.lookup name == some (1000 ^ power)) = true := by
  decide

theorem named_iff (name : List Char) (size : Nat) :
    units.lookup (String.ofList (Text.lower name)) = some size ↔ Named name size := by
  constructor
  · intro known
    obtain ⟨before, after, split, _⟩ := List.lookup_eq_some_iff.mp known
    have member : (String.ofList (Text.lower name), size) ∈ units := by simp [split]
    rw [units_names, List.mem_cons, List.mem_mapIdx] at member
    rcases member with none | ⟨power, inside, entry⟩
    · obtain ⟨empty, rfl⟩ := Prod.mk.inj none
      have absent : name = [] := by
        have chars := congrArg String.toList empty
        rw [String.toList_ofList, Text.lower] at chars
        exact List.map_eq_nil_iff.mp chars
      subst absent
      exact .unnamed
    · obtain ⟨found, rfl⟩ := Prod.mk.inj entry
      exact .named power (found ▸ List.getElem?_eq_getElem inside)
  · intro named
    cases named with
    | unnamed => rfl
    | named power found =>
        obtain ⟨inside, _⟩ := List.getElem?_eq_some_iff.mp found
        have entry := lookup_names power inside
        rw [found] at entry
        exact beq_iff_eq.mp entry

theorem counted_iff (digits : List Char) (count : Nat) :
    magnitude? digits = some count ↔ Counted digits count ∧ count < 1 <<< 64 := by
  rw [magnitude?]
  split
  next none =>
    rw [List.isEmpty_iff] at none
    subst none
    rw [Option.some.injEq]
    constructor
    · rintro rfl
      exact ⟨.single, by decide⟩
    · rintro ⟨counted, _⟩
      cases counted with
      | single => rfl
      | decimal number => exact absurd rfl (Text.decimal_nonempty [] count number)
  next some =>
    rw [Text.within_eq_some_iff, Text.decimal_iff]
    constructor
    · exact fun ⟨number, fits⟩ => ⟨.decimal number, fits⟩
    · rintro ⟨counted, fits⟩
      cases counted with
      | single => exact absurd rfl some
      | decimal number => exact ⟨number, fits⟩

theorem named_pos {name : List Char} {size : Nat} (named : Named name size) : 0 < size := by
  cases named with
  | unnamed => decide
  | named power _ => exact Nat.pow_pos (by decide)

/-- A text is a length of time exactly when a number and the name of a unit stand in it, either of
which may be left out but not both, and the product is not zero and fits into a word. -/
theorem of_text_femtoseconds (text : String) (size : Nat) :
    let whole := Text.trim text.toList
    let digits := whole.takeWhile Char.isDigit
    let name := Text.trim (whole.dropWhile Char.isDigit)
    ofText text = .ok size ↔
      whole ≠ [] ∧ ∃ count factor, Counted digits count ∧ Named name factor ∧
        size = count * factor ∧ 1 ≤ size ∧ size ≤ 2 ^ 64 - 1 := by
  intro whole digits name
  have word : wordLimit = 2 ^ 64 := by rw [wordLimit_eq, Nat.one_shiftLeft]
  rw [ofText, of_chars_iff, word]
  constructor
  · rintro ⟨present, count, factor, counted, named, product, positive, fits⟩
    refine ⟨present, count, factor, ((counted_iff digits count).mp counted).1,
      (named_iff name factor).mp named, product, positive, by omega⟩
  · rintro ⟨present, count, factor, counted, named, rfl, positive, fits⟩
    -- No unit is smaller than a femtosecond, so the number is not larger than the product.
    have small : count < 1 <<< 64 := by
      have less := Nat.le_mul_of_pos_right count (named_pos named)
      rw [Nat.one_shiftLeft]
      omega
    exact ⟨present, count, factor, (counted_iff digits count).mpr ⟨counted, small⟩,
      (named_iff name factor).mpr named, rfl, positive, by omega⟩

/-- More digits than a word could have, and a name with a capital. -/
example : ofText " 00000000000000000000000020 Ns " = .ok 20000000 := by decide +kernel

end CoreBench.TimeUnit
