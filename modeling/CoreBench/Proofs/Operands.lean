import CoreBench.Bench.Command

/-!
What reading an operand checks. An operand that has been read names registers that the
core has and bits that a register has, the highest one first, so evaluating it cannot
leave the snapshot.
-/

namespace CoreBench

namespace Text

theorem numeral_lt (cs : List Char) (value : Nat) (read : numeral? cs = some value) :
    value < wordLimit := by
  rw [wordLimit_eq]
  rw [numeral?] at read
  split at read
  · exact ((within_eq_some_iff _ _ _).mp read).2
  · exact ((within_eq_some_iff _ _ _).mp read).2

end Text

namespace Operand

/-- What an operand can name on a core. -/
def Within (arch : Arch) : Operand → Prop
  | constant value => value < wordLimit
  | programCounter => True
  | register file slice =>
      slice.index < arch.count file ∧ slice.lo ≤ slice.hi ∧ slice.hi < arch.wordSize

instance (arch : Arch) : (operand : Operand) → Decidable (operand.Within arch)
  | constant value => inferInstanceAs (Decidable (value < wordLimit))
  | programCounter => inferInstanceAs (Decidable True)
  | register file slice =>
      inferInstanceAs (Decidable (slice.index < arch.count file ∧ slice.lo ≤ slice.hi ∧
        slice.hi < arch.wordSize))

theorem bit_ok_iff (arch : Arch) (text : String) (position : Nat) :
    bit arch text = .ok position ↔
      Text.within 32 (Text.decimal? (Text.trim text.toList)) = some position ∧
        position < arch.wordSize := by
  rw [bit]
  cases Text.within 32 (Text.decimal? (Text.trim text.toList)) with
  | none => simp
  | some read =>
      by_cases inside : read < arch.wordSize
      · simp only [inside, ↓reduceIte, Except.ok.injEq, Option.some.injEq]
        exact ⟨fun same => ⟨same, same ▸ inside⟩, fun both => both.1⟩
      · simp only [inside, ↓reduceIte, reduceCtorEq, Option.some.injEq, false_iff]
        rintro ⟨rfl, bound⟩
        exact inside bound

theorem map_bit_iff (arch : Arch) (text : String) (hi lo : Nat) :
    (bit arch text).map (fun position => (position, position)) = .ok (hi, lo) ↔
      bit arch text = .ok hi ∧ lo = hi := by
  cases bit arch text with
  | error error => simp [Except.map]
  | ok position =>
      simp only [Except.map, Except.ok.injEq, Prod.mk.injEq]
      constructor
      · rintro ⟨rfl, rfl⟩
        exact ⟨rfl, rfl⟩
      · rintro ⟨rfl, rfl⟩
        exact ⟨rfl, rfl⟩

/-- The bits of a range that can be read: one endpoint stands for both, and none for all bits. -/
inductive Bounds (arch : Arch) : Option String → Option String → Nat → Nat → Prop where
  | whole (wide : arch.wordSize ≠ 0) : Bounds arch none none (arch.wordSize - 1) 0
  | first {text : String} {position : Nat} (read : bit arch text = .ok position) :
      Bounds arch (some text) none position position
  | last {text : String} {position : Nat} (read : bit arch text = .ok position) :
      Bounds arch none (some text) position position
  | both {start finish : String} {hi lo : Nat} (high : bit arch start = .ok hi)
      (low : bit arch finish = .ok lo) : Bounds arch (some start) (some finish) hi lo

theorem bounds_ok_iff (arch : Arch) (start finish : Option String) (hi lo : Nat) :
    bounds arch start finish = .ok (hi, lo) ↔ Bounds arch start finish hi lo := by
  constructor
  · intro read
    cases start with
    | none =>
        cases finish with
        | none =>
            rw [bounds] at read
            split at read
            next => cases read
            next wide =>
              cases read
              exact .whole wide
        | some finish =>
            obtain ⟨position, rfl⟩ := (map_bit_iff arch finish hi lo).mp read
            exact .last position
    | some start =>
        cases finish with
        | none =>
            obtain ⟨position, rfl⟩ := (map_bit_iff arch start hi lo).mp read
            exact .first position
        | some finish =>
            simp only [bounds] at read
            split at read
            next => cases read
            next high =>
              split at read
              next => cases read
              next low =>
                cases read
                exact .both high low
  · intro selects
    cases selects with
    | whole wide => rw [bounds, if_neg wide]
    | first position => exact (map_bit_iff arch _ hi hi).mpr ⟨position, rfl⟩
    | last position => exact (map_bit_iff arch _ hi hi).mpr ⟨position, rfl⟩
    | both high low => simp only [bounds, high, low]

theorem bounds_within (arch : Arch) (start finish : Option String) (hi lo : Nat)
    (read : bounds arch start finish = .ok (hi, lo)) : hi < arch.wordSize := by
  cases (bounds_ok_iff arch start finish hi lo).mp read with
  | whole wide => exact Nat.sub_one_lt wide
  | first position => exact ((bit_ok_iff arch _ hi).mp position).2
  | last position => exact ((bit_ok_iff arch _ hi).mp position).2
  | both high low => exact ((bit_ok_iff arch _ hi).mp high).2

theorem of_register_ok_iff (arch : Arch) (reference : Reference) (file : RegisterFile)
    (digits : List Char) (operand : Operand) :
    ofRegister arch reference file digits = .ok operand ↔
      ∃ index hi lo, Text.within 64 (Text.decimal? digits) = some index ∧
        index < arch.count file ∧ bounds arch reference.first reference.last = .ok (hi, lo) ∧
        lo ≤ hi ∧ operand = .register file ⟨index, hi, lo⟩ := by
  rw [ofRegister]
  cases Text.within 64 (Text.decimal? digits) with
  | none => simp
  | some index =>
      by_cases outside : arch.count file ≤ index
      · simp only [outside, ↓reduceIte, reduceCtorEq, Option.some.injEq, false_iff]
        rintro ⟨_, _, _, rfl, inside, _⟩
        omega
      · simp only [outside, ↓reduceIte]
        cases bounds arch reference.first reference.last with
        | error error => simp
        | ok range =>
            obtain ⟨hi, lo⟩ := range
            by_cases reversed : hi < lo
            · simp only [reversed, ↓reduceIte, reduceCtorEq, Except.ok.injEq, Prod.mk.injEq,
                false_iff]
              rintro ⟨_, _, _, _, _, ⟨rfl, rfl⟩, order, _⟩
              omega
            · simp only [reversed, ↓reduceIte, Except.ok.injEq, Option.some.injEq, Prod.mk.injEq]
              constructor
              · rintro rfl
                exact ⟨index, hi, lo, rfl, by omega, ⟨rfl, rfl⟩, by omega, rfl⟩
              · rintro ⟨_, _, _, rfl, _, ⟨rfl, rfl⟩, _, rfl⟩
                rfl

theorem of_reference_within (arch : Arch) (reference : Reference) (written : String)
    (operand : Operand) (read : ofReference arch reference written = .ok operand) :
    operand.Within arch := by
  simp only [ofReference] at read
  split at read
  next file digits _ =>
    obtain ⟨index, hi, lo, _, inside, range, order, rfl⟩ :=
      (of_register_ok_iff arch reference file digits operand).mp read
    exact ⟨inside, order, bounds_within arch _ _ hi lo range⟩
  next =>
    split at read
    · cases read
    · split at read
      · split at read
        next value numeral =>
          cases read
          exact Text.numeral_lt _ value numeral
        next => cases read
      · split at read
        · cases read
          trivial
        · cases read

theorem parse_within (arch : Arch) (aliases : AliasTable) (cs : List Char) (operand : Operand)
    (read : parse arch aliases cs = .ok operand) : operand.Within arch :=
  of_reference_within arch _ _ operand read

end Operand

namespace Comparison

theorem parse_ok_iff (arch : Arch) (aliases : AliasTable) (cs : List Char)
    (comparison : Comparison) :
    parse arch aliases cs = .ok comparison ↔
      '\n' ∉ cs ∧ ∃ left right, Relation.cut cs = some (left, comparison.relation, right) ∧
        Operand.parse arch aliases left = .ok comparison.left ∧
        Operand.parse arch aliases right = .ok comparison.right := by
  obtain ⟨left, relation, right⟩ := comparison
  simp only [parse]
  by_cases broken : '\n' ∈ cs
  · simp [broken]
  · simp only [broken, ↓reduceIte, not_false_eq_true, true_and]
    cases Relation.cut cs with
    | none => simp
    | some parts =>
        obtain ⟨before, found, after⟩ := parts
        cases first : Operand.parse arch aliases before with
        | error error => grind
        | ok one =>
            cases second : Operand.parse arch aliases after with
            | error error => grind
            | ok other => grind

end Comparison

end CoreBench
