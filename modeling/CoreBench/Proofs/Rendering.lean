import CoreBench.Proofs.Grammar

/-!
Reading operands back. The text of an operand is written as a register, a constant or the
program counter is, so where no aliases are defined it is read as that operand, with any white
space around it.
-/

namespace CoreBench

namespace Operand

/-- The characters that operands are written with. -/
def writes (c : Char) : Bool :=
  c.isAlphanum || c == '[' || c == ':' || c == ']'

theorem writes_solid (c : Char) (written : writes c = true) : Text.isBlank c = false := by
  simp only [writes, Bool.or_eq_true, beq_iff_eq] at written
  rcases written with ((letter | rfl) | rfl) | rfl
  · exact Text.alphanum_solid c letter
  · decide
  · decide
  · decide

theorem to_text_constant (value : Nat) :
    (constant value).toText.toList = '0' :: 'x' :: Nat.toDigits 16 value := by
  simp [toText, Text.hexLower, toString]

theorem constant_spelled (value : Nat) : Text.Spells (constant value).toText.toList value := by
  rw [to_text_constant]
  exact .hexadecimal 0 (.inl rfl) (Text.lower_hex_digits value)

theorem to_text_register (file : RegisterFile) (slice : Slice) :
    (register file slice).toText.toList =
      (file.letter :: Nat.toDigits 10 slice.index) ++ '[' :: (Nat.toDigits 10 slice.hi ++
        ':' :: (Nat.toDigits 10 slice.lo ++ [']'])) := by
  simp [toText, toString]

theorem letter_named (file : RegisterFile) : file.letter ∈ file.letters := by
  cases file with
  | general => exact List.mem_cons_self
  | special => exact List.mem_cons_self

theorem name_alphanum (file : RegisterFile) (index : Nat) :
    ∀ c ∈ file.letter :: Nat.toDigits 10 index, c.isAlphanum = true :=
  (register_name_decimal file file.letter _ index (letter_named file) (Text.digits_decimal index)).2

theorem to_text_nonempty (operand : Operand) : operand.toText.toList ≠ [] := by
  cases operand with
  | constant value => simp [to_text_constant]
  | programCounter => decide
  | register file slice => simp [to_text_register]

theorem to_text_writes (operand : Operand) : ∀ c ∈ operand.toText.toList, writes c = true := by
  intro c member
  cases operand with
  | constant value =>
      have letter := Text.spelled_alphanum _ value (constant_spelled value) c member
      simp [writes, letter]
  | programCounter =>
      have letters : "pc".toList.all writes = true := by decide
      exact List.all_eq_true.mp letters c member
  | register file slice =>
      rw [to_text_register] at member
      simp only [List.mem_append, List.mem_cons, List.not_mem_nil, or_false] at member
      have name := name_alphanum file slice.index c
      simp only [List.mem_cons] at name
      rcases member with base | rfl | hi | rfl | lo | rfl
      · simp [writes, name base]
      · rfl
      · simp [writes, Text.decimal_digits_alphanum _ c hi]
      · rfl
      · simp [writes, Text.decimal_digits_alphanum _ c lo]
      · rfl

theorem to_text_solid (operand : Operand) :
    ∀ c ∈ operand.toText.toList, Text.isBlank c = false :=
  fun c member => writes_solid c (operand.to_text_writes c member)

theorem to_text_absent (operand : Operand) (sep : Char) (unwritten : writes sep = false) :
    sep ∉ operand.toText.toList := by
  intro member
  rw [operand.to_text_writes sep member] at unwritten
  cases unwritten

theorem decimal_endpoint (position : Nat) :
    Reference.Endpoint (Nat.toDigits 10 position) (some position) := by
  have endpoint : Reference.Endpoint ([] ++ (Nat.toDigits 10 position ++ [])) (some position) :=
    .number (by simp) (by simp) (Text.digits_decimal position)
  rwa [List.nil_append, List.append_nil] at endpoint

theorem to_text_written (wordSize : Nat) (operand : Operand) (other : operand ≠ .programCounter) :
    Written wordSize operand.toText.toList operand := by
  cases operand with
  | constant value =>
      have written : Written wordSize ((constant value).toText.toList ++ ([] ++ [])) _ :=
        .constant (constant_spelled value) (by simp) .missing
      rwa [List.append_nil, List.append_nil] at written
  | programCounter => exact absurd rfl other
  | register file slice =>
      have written : Written wordSize (file.letter :: (Nat.toDigits 10 slice.index ++ ([] ++ _))) _ :=
        .register (letter_named file) (Text.digits_decimal slice.index) (by simp)
          (.divided (decimal_endpoint slice.hi) (decimal_endpoint slice.lo)) rfl
      rw [to_text_register]
      simpa using written

/-- What an operand shows itself as is read as the operand. -/
theorem parse_to_text (arch : Arch) (operand : Operand) (cs : List Char)
    (within : operand.Within arch) (short : arch.wordSize ≤ 64)
    (words : ∀ file, arch.count file ≤ wordLimit)
    (shown : Text.trim cs = operand.toText.toList) : parse arch {} cs = .ok operand := by
  by_cases counter : operand = .programCounter
  · subst counter
    rw [parse_taken_apart arch cs _ (Reference.of_name cs ['p', 'c'] [] [] none none shown
      (by simp) (by simp) .missing)]
    rfl
  · refine parse_of_written arch cs operand words (by omega) ?_ within
    rw [shown]
    exact to_text_written arch.wordSize operand counter

end Operand

end CoreBench
