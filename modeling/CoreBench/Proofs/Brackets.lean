import CoreBench.Proofs.Grammar

/-!
What becomes of brackets. Where they close at the end of a text, an operand that is read from it
has the bits that they select, or there is nothing to select; where they do not, the text is the
program counter if it starts as that does, and an error otherwise.
-/

namespace CoreBench.Operand

/-- An operand makes use of endpoints: they are bits of a register, or there are none. -/
def Uses (wordSize : Nat) (first last : Option Nat) : Operand → Prop
  | constant _ => first = none ∧ last = none
  | programCounter => first = none ∧ last = none
  | register _ slice => selected wordSize first last = (slice.hi, slice.lo)

theorem of_reference_uses (arch : Arch) (reference : Reference) (written : String)
    (operand : Operand) (read : ofReference arch reference written = .ok operand) :
    ∃ first last, Reference.Position reference.first first ∧
      Reference.Position reference.last last ∧ operand.Uses arch.wordSize first last := by
  rw [of_reference_ok_iff] at read
  rcases read with ⟨file, digits, _, read⟩ | ⟨start, finish, plain⟩
  · obtain ⟨index, hi, lo, _, _, bounds, _, rfl⟩ :=
      (of_register_ok_iff arch reference file digits operand).mp read
    exact bounds_selected arch _ _ hi lo bounds
  · refine ⟨none, none, (Reference.position_none_iff _).mpr start,
      (Reference.position_none_iff _).mpr finish, ?_⟩
    rcases plain with ⟨value, _, _, rfl⟩ | ⟨_, rfl⟩
    · exact ⟨rfl, rfl⟩
    · exact ⟨rfl, rfl⟩

/-- Brackets that close at the end of a text are made use of, and others are passed over where
the text starts as the program counter does. -/
theorem parse_heeds_brackets (arch : Arch) (cs : List Char) (opened : '[' ∈ cs) :
    (∀ base range, Reference.Bracketed (Text.trim cs) base range → ∀ operand,
      parse arch {} cs = .ok operand → ∃ first last,
        Reference.Range ('[' :: (range ++ [']'])) first last ∧
          operand.Uses arch.wordSize first last) ∧
    ((∀ base range, ¬ Reference.Bracketed (Text.trim cs) base range) → ∀ operand,
      parse arch {} cs = .ok operand ↔ StartsCounter (Text.trim cs) ∧ operand = .programCounter) := by
  constructor
  · intro base range bracketed operand read
    cases apart : Reference.ofChars? (Text.trim cs) with
    | none =>
        obtain ⟨_, unclosed⟩ := (Reference.of_chars_none_iff _ (Text.trim_trim cs)).mp apart
        exact absurd bracketed (unclosed base range)
    | some reference =>
        obtain ⟨front, part, whole, opens, written, _⟩ :=
          (Reference.of_chars_iff _ reference (Text.trim_trim cs)).mp apart
        rw [parse_taken_apart arch cs reference apart] at read
        obtain ⟨first, last, one, other, uses⟩ := of_reference_uses arch reference _ operand read
        rw [← bracketed.part whole opens written]
        exact ⟨first, last, (Reference.range_iff part first last).mpr ⟨_, _, written, one, other⟩, uses⟩
  · intro unclosed operand
    have present := (Text.solid_mem_trim cs '[' (by decide)).mpr opened
    exact parse_unclosed_iff arch cs operand
      ((Reference.of_chars_none_iff _ (Text.trim_trim cs)).mpr ⟨present, unclosed⟩)

/-- A lone colon selects nothing, so a constant may stand in front of it. -/
theorem lone_colon_heeded :
    '[' ∈ "0x1F [ : ]".toList ∧ ∃ first last, Reference.Range "[ : ]".toList first last ∧
      (constant 31).Uses 32 first last := by
  have opened : '[' ∈ "0x1F [ : ]".toList := by decide
  have bracketed : Reference.Bracketed (Text.trim "0x1F [ : ]".toList) "0x1F ".toList " : ".toList :=
    ⟨by decide +kernel, by decide, by decide⟩
  exact ⟨opened, (parse_heeds_brackets {} _ opened).1 _ _ bracketed (constant 31) (by decide +kernel)⟩

/-- An open range behind `pc` is passed over, where the closed one is an error. -/
theorem open_range_on_counter :
    '[' ∈ "pc[3:0".toList ∧ (Text.trim "pc[3:0".toList).getLast? ≠ some ']' ∧
      parse {} {} "pc[3:0".toList = .ok .programCounter ∧
      parse {} {} "pc[3:0]".toList = .error (.unknown "pc[3:0]" "pc[3:0]") := by
  refine ⟨by decide, by decide, by decide +kernel, by decide +kernel⟩

end CoreBench.Operand
