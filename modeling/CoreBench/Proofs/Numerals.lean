import CoreBench.Text.Numeral
import CoreBench.Proofs.Characters
import Mathlib.Data.List.Induction

/-!
Numbers as they may be written: with leading zeros, and the letters of a hexadecimal one in
either case. What is written so is read as the number, and nothing else is read.
-/

namespace CoreBench.Text

/-- A number in decimal, with any zeros in front. -/
def Decimal (cs : List Char) (number : Nat) : Prop :=
  ∃ zeros, cs = List.replicate zeros '0' ++ Nat.toDigits 10 number

/-- A number in decimal, or in hexadecimal behind a `0x`. -/
inductive Spells : List Char → Nat → Prop where
  | decimal (zeros number : Nat) :
      Spells (List.replicate zeros '0' ++ Nat.toDigits 10 number) number
  | hexadecimal {mark : Char} {digits : List Char} {number : Nat} (zeros : Nat)
      (marked : mark = 'x' ∨ mark = 'X')
      (small : lower digits = List.replicate zeros '0' ++ Nat.toDigits 16 number) :
      Spells ('0' :: mark :: digits) number

theorem decimal_spelled (zeros number : Nat) :
    decimal? (List.replicate zeros '0' ++ Nat.toDigits 10 number) = some number := by
  induction zeros with
  | zero => exact decimal?_toDigits number
  | succ zeros ih =>
      rw [decimal?, Option.ite_none_right_eq_some, Option.some.injEq] at *
      obtain ⟨digits, value⟩ := ih
      rw [List.replicate_succ, List.cons_append]
      refine ⟨?_, ?_⟩
      · rw [Bool.and_eq_true] at digits
        simp [digits.2]
      · rw [Nat.ofDigitChars_cons]
        exact value

theorem digits_of_decimal (zeros number : Nat) :
    ∀ c ∈ List.replicate zeros '0' ++ Nat.toDigits 10 number, c.isDigit = true := by
  intro c member
  rcases List.mem_append.mp member with zero | digit
  · rw [List.eq_of_mem_replicate zero]
    rfl
  · exact Nat.isDigit_of_mem_toDigits (by decide) (by decide) digit

theorem digits_decimal (number : Nat) : Decimal (Nat.toDigits 10 number) number :=
  ⟨0, (List.nil_append _).symm⟩

theorem decimal_digits (cs : List Char) (number : Nat) (decimal : Decimal cs number) :
    ∀ c ∈ cs, c.isDigit = true := by
  obtain ⟨zeros, rfl⟩ := decimal
  exact digits_of_decimal zeros number

theorem decimal_nonempty (digits : List Char) (number : Nat) (decimal : Decimal digits number) :
    digits ≠ [] := by
  obtain ⟨zeros, rfl⟩ := decimal
  simp [Nat.toDigits_ne_nil]

theorem decimal_solid (digits : List Char) (number : Nat) (decimal : Decimal digits number) :
    ∀ c ∈ digits, isBlank c = false :=
  fun c member => digit_solid c (decimal_digits digits number decimal c member)

theorem decimal_not_mem (digits : List Char) (number : Nat) (c : Char)
    (decimal : Decimal digits number) (other : c.isDigit = false) : c ∉ digits := by
  intro member
  rw [decimal_digits digits number decimal c member] at other
  cases other

theorem unsigned_digits (bits number : Nat) (small : number < 1 <<< bits) :
    unsigned? bits (Nat.toDigits 10 number) = some number := by
  have fits : within bits (decimal? (Nat.toDigits 10 number)) = some number := by
    rw [decimal?_toDigits]
    exact (within_eq_some_iff bits number _).mpr ⟨rfl, small⟩
  rw [unsigned?.eq_def]
  split
  next digits plus =>
      have absent := decimal_not_mem _ number '+' (digits_decimal number) (by decide)
      rw [plus] at absent
      exact absurd List.mem_cons_self absent
  next => exact fits

theorem hex_digit_of_lt : ∀ digit < 16, hexDigit? digit.digitChar = some digit := by
  decide

theorem hex_digit_ascii :
    ∀ code < 128, hexDigit? (Char.ofNat code).toLower = hexDigit? (Char.ofNat code) := by
  decide

/-- The case of a digit does not matter. -/
theorem hex_digit_to_lower (c : Char) : hexDigit? c.toLower = hexDigit? c := by
  cases upper : c.isUpper with
  | false => rw [to_lower_of_not_upper c upper]
  | true =>
      have range := upper_range c upper
      have same := hex_digit_ascii c.toNat (by omega)
      rwa [Char.ofNat_toNat] at same

theorem hex_digits_lower (cs : List Char) : (lower cs).mapM hexDigit? = cs.mapM hexDigit? := by
  rw [lower, List.mapM_map]
  congr 1
  funext c
  exact hex_digit_to_lower c

theorem hex_digits_read (number : Nat) :
    ∃ digits, (Nat.toDigits 16 number).mapM hexDigit? = some digits ∧
      digits.foldl (fun n digit => 16 * n + digit) 0 = number := by
  induction number using Nat.strongRecOn with
  | _ number ih =>
      by_cases single : number < 16
      · refine ⟨[number], ?_, by simp⟩
        rw [Nat.toDigits_of_lt_base single]
        simp [hex_digit_of_lt number single]
      · obtain ⟨digits, front, value⟩ := ih (number / 16) (by omega)
        refine ⟨digits ++ [number % 16], ?_, ?_⟩
        · rw [Nat.toDigits_of_base_le (by decide) (by omega), List.mapM_append, front]
          simp [hex_digit_of_lt (number % 16) (by omega)]
        · rw [List.foldl_append, value]
          simp only [List.foldl_cons, List.foldl_nil]
          omega

theorem hex_digits_padded (zeros number : Nat) :
    ∃ digits, (List.replicate zeros '0' ++ Nat.toDigits 16 number).mapM hexDigit? = some digits ∧
      digits.foldl (fun n digit => 16 * n + digit) 0 = number := by
  induction zeros with
  | zero => exact hex_digits_read number
  | succ zeros ih =>
      obtain ⟨digits, read, value⟩ := ih
      refine ⟨0 :: digits, ?_, value⟩
      rw [List.replicate_succ, List.cons_append, List.mapM_cons, read]
      rfl

theorem hexadecimal_spelled (digits : List Char) (zeros number : Nat)
    (small : lower digits = List.replicate zeros '0' ++ Nat.toDigits 16 number) :
    hexadecimal? digits = some number := by
  obtain ⟨values, read, value⟩ := hex_digits_padded zeros number
  rw [← small, hex_digits_lower] at read
  cases digits with
  | nil => exact absurd (List.append_eq_nil_iff.mp small.symm).2 Nat.toDigits_ne_nil
  | cons c digits => simp [hexadecimal?, read, value]

theorem decimal_digits_alphanum (number : Nat) :
    ∀ c ∈ Nat.toDigits 10 number, c.isAlphanum = true := by
  intro c member
  rw [Char.isAlphanum, Nat.isDigit_of_mem_toDigits (by decide) (by decide) member, Bool.or_true]

theorem hex_part_of_digits (cs : List Char) (digits : ∀ c ∈ cs, c.isDigit = true) :
    hexPart? cs = none := by
  unfold hexPart?
  split
  next => exact absurd (digits 'x' (by simp)) (by decide)
  next => exact absurd (digits 'X' (by simp)) (by decide)
  next => rfl

/-- A number that fits into a word is read as what it spells. -/
theorem numeral_spelled (cs : List Char) (number : Nat) (spelled : Spells cs number)
    (fits : number < 1 <<< 64) : numeral? cs = some number := by
  cases spelled with
  | decimal zeros =>
      rw [numeral?, hex_part_of_digits _ (digits_of_decimal zeros number)]
      exact (within_eq_some_iff 64 number _).mpr ⟨decimal_spelled zeros number, fits⟩
  | hexadecimal zeros marked small =>
      have read := hexadecimal_spelled _ zeros number small
      rcases marked with rfl | rfl
      · exact (within_eq_some_iff 64 number _).mpr ⟨read, fits⟩
      · exact (within_eq_some_iff 64 number _).mpr ⟨read, fits⟩

theorem mem_to_digits (base number : Nat) (c : Char) (more : 1 < base)
    (member : c ∈ Nat.toDigits base number) : ∃ digit < base, c = digit.digitChar := by
  induction number using Nat.strongRecOn with
  | _ number ih =>
      by_cases single : number < base
      · rw [Nat.toDigits_of_lt_base single] at member
        exact ⟨number, single, List.mem_singleton.mp member⟩
      · rw [Nat.toDigits_of_base_le more (by omega), List.mem_append] at member
        rcases member with front | last
        · exact ih (number / base) (Nat.div_lt_self (by omega) more) front
        · exact ⟨number % base, Nat.mod_lt _ (by omega), List.mem_singleton.mp last⟩

theorem digit_char_alphanum :
    ∀ digit < 16, digit.digitChar.isAlphanum = true ∧ digit.digitChar.toLower = digit.digitChar := by
  decide

theorem hex_digits_alphanum (number : Nat) :
    ∀ c ∈ Nat.toDigits 16 number, c.isAlphanum = true := by
  intro c member
  obtain ⟨digit, bound, rfl⟩ := mem_to_digits 16 number c (by decide) member
  exact (digit_char_alphanum digit bound).1

theorem lower_hex_digits (number : Nat) :
    lower (Nat.toDigits 16 number) = Nat.toDigits 16 number := by
  have small : ∀ c ∈ Nat.toDigits 16 number, c.toLower = id c := by
    intro c member
    obtain ⟨digit, bound, rfl⟩ := mem_to_digits 16 number c (by decide) member
    exact (digit_char_alphanum digit bound).2
  rw [lower, List.map_congr_left small, List.map_id]

theorem spelled_alphanum (cs : List Char) (number : Nat) (spelled : Spells cs number) :
    ∀ c ∈ cs, c.isAlphanum = true := by
  intro c member
  cases spelled with
  | decimal zeros => simp [Char.isAlphanum, digits_of_decimal zeros number c member]
  | @hexadecimal mark digits _ zeros marked small =>
      rcases List.mem_cons.mp member with rfl | member
      · rfl
      rcases List.mem_cons.mp member with rfl | member
      · rcases marked with rfl | rfl
        · rfl
        · rfl
      apply alphanum_of_to_lower
      have lowered : c.toLower ∈ lower digits := List.mem_map_of_mem member
      rw [small, List.mem_append] at lowered
      rcases lowered with zero | digit
      · rw [List.eq_of_mem_replicate zero]
        rfl
      · exact hex_digits_alphanum number _ digit

/-- Digits are the last ones of a number behind zeros. -/
theorem digits_padded (base : Nat) (more : 1 < base) (values : List Nat) (nonempty : values ≠ [])
    (small : ∀ value ∈ values, value < base) :
    ∃ zeros, values.map Nat.digitChar = List.replicate zeros '0' ++
      Nat.toDigits base (values.foldl (fun n digit => base * n + digit) 0) := by
  induction values using List.reverseRecOn with
  | nil => exact absurd rfl nonempty
  | append_singleton front last ih =>
      rw [List.forall_mem_append] at small
      obtain ⟨small, bound⟩ := small
      have bound : last < base := bound last List.mem_cons_self
      have final : Nat.toDigits base last = [last.digitChar] := Nat.toDigits_of_lt_base bound
      rw [List.map_append, List.map_singleton, List.foldl_append, List.foldl_cons, List.foldl_nil]
      by_cases empty : front = []
      · subst empty
        exact ⟨0, by simp [final]⟩
      · obtain ⟨zeros, padded⟩ := ih empty small
        rw [padded, ← final]
        generalize front.foldl (fun n digit => base * n + digit) 0 = number
        rcases Nat.eq_zero_or_pos number with rfl | positive
        · refine ⟨zeros + 1, ?_⟩
          rw [Nat.toDigits_of_lt_base (show 0 < base by omega), Nat.mul_zero, Nat.zero_add,
            List.replicate_succ']
          rfl
        · refine ⟨zeros, ?_⟩
          rw [List.append_assoc, Nat.toDigits_append_toDigits more positive bound]

theorem digit_char_code : ∀ digit < 10, digit.digitChar = Char.ofNat (digit + 48) := by
  decide

theorem digit_char_of_digit (c : Char) (digit : c.isDigit = true) :
    (c.toNat - '0'.toNat).digitChar = c := by
  obtain ⟨low, high⟩ := digit_range c digit
  have same := digit_char_code (c.toNat - 48) (by omega)
  rwa [Nat.sub_add_cancel low, Char.ofNat_toNat] at same

theorem decimal_iff (cs : List Char) (number : Nat) :
    decimal? cs = some number ↔ Decimal cs number := by
  constructor
  · intro read
    rw [decimal?, Option.ite_none_right_eq_some, Option.some.injEq, Bool.and_eq_true,
      List.all_eq_true] at read
    obtain ⟨⟨nonempty, digits⟩, rfl⟩ := read
    have written : (cs.map fun c => c.toNat - '0'.toNat).map Nat.digitChar = cs := by
      rw [List.map_map]
      exact (List.map_congr_left fun c member => digit_char_of_digit c (digits c member)).trans
        (List.map_id cs)
    obtain ⟨zeros, padded⟩ := digits_padded 10 (by decide) (cs.map fun c => c.toNat - '0'.toNat)
      (by simpa using nonempty) (by
        intro value member
        obtain ⟨c, inside, rfl⟩ := List.mem_map.mp member
        have := digit_range c (digits c inside)
        show c.toNat - 48 < 10
        omega)
    rw [written, List.foldl_map] at padded
    exact ⟨zeros, padded⟩
  · rintro ⟨zeros, rfl⟩
    exact decimal_spelled zeros number

/-- A text spells one number only. -/
theorem decimal_unique {cs : List Char} {number number' : Nat} (decimal : Decimal cs number)
    (decimal' : Decimal cs number') : number = number' := by
  have read := (decimal_iff cs number).mpr decimal
  rw [(decimal_iff cs number').mpr decimal'] at read
  exact (Option.some.inj read).symm

/-- A sign in front of a number that may have one changes nothing. -/
theorem unsigned_iff (bits : Nat) (cs : List Char) (number : Nat) :
    unsigned? bits cs = some number ↔
      (Decimal cs number ∨ ∃ digits, cs = '+' :: digits ∧ Decimal digits number) ∧
        number < 1 <<< bits := by
  rw [unsigned?.eq_def]
  split
  next digits =>
      have signed : ¬ Decimal ('+' :: digits) number := by
        intro decimal
        exact absurd (decimal_digits _ number decimal '+' List.mem_cons_self) (by decide)
      rw [within_eq_some_iff, decimal_iff]
      simp [signed]
  next plain =>
      have unsigned : ¬ ∃ digits, cs = '+' :: digits ∧ Decimal digits number := by
        rintro ⟨digits, whole, _⟩
        exact plain digits whole
      rw [within_eq_some_iff, decimal_iff, or_iff_left unsigned]

theorem hex_digit_low (c : Char) (value : Nat) (read : hexDigit? c = some value) :
    c.toNat < 128 := by
  have bound (limit : Char) (below : c ≤ limit) : c.toNat ≤ limit.toNat :=
    UInt32.le_iff_toNat_le.mp below
  rw [hexDigit?] at read
  split at read
  next digit =>
    have := digit_range c digit
    omega
  split at read
  next small => exact Nat.lt_of_le_of_lt (bound 'f' small.2) (by decide)
  split at read
  next big => exact Nat.lt_of_le_of_lt (bound 'F' big.2) (by decide)
  next => cases read

theorem hex_digit_char_ascii :
    ∀ code < 128, (hexDigit? (Char.ofNat code)).all (fun value =>
      decide (value < 16) && value.digitChar == (Char.ofNat code).toLower) = true := by
  decide

theorem hex_digit_char (c : Char) (value : Nat) (read : hexDigit? c = some value) :
    value < 16 ∧ value.digitChar = c.toLower := by
  have both := hex_digit_char_ascii c.toNat (hex_digit_low c value read)
  rw [Char.ofNat_toNat, read] at both
  simpa using both

theorem hex_digits_chars (cs : List Char) (values : List Nat)
    (read : cs.mapM hexDigit? = some values) :
    values.map Nat.digitChar = lower cs ∧ ∀ value ∈ values, value < 16 := by
  induction cs generalizing values with
  | nil =>
      cases read
      exact ⟨rfl, by simp⟩
  | cons c cs ih =>
      simp only [List.mapM_cons, Option.bind_eq_bind, Option.bind_eq_some_iff, Option.pure_def,
        Option.some.injEq] at read
      obtain ⟨first, one, others, rest, rfl⟩ := read
      obtain ⟨small, shown⟩ := hex_digit_char c first one
      obtain ⟨letters, bounds⟩ := ih others rest
      exact ⟨by rw [List.map_cons, shown, letters]; rfl, List.forall_mem_cons.mpr ⟨small, bounds⟩⟩

theorem hexadecimal_padded (cs : List Char) (number : Nat)
    (read : hexadecimal? cs = some number) :
    ∃ zeros, lower cs = List.replicate zeros '0' ++ Nat.toDigits 16 number := by
  rw [hexadecimal?, Option.ite_none_left_eq_some, Option.map_eq_some_iff] at read
  obtain ⟨nonempty, values, read, rfl⟩ := read
  obtain ⟨letters, small⟩ := hex_digits_chars cs values read
  have present : values ≠ [] := by
    rintro rfl
    exact nonempty (by simpa [lower] using letters.symm)
  rw [← letters]
  exact digits_padded 16 (by decide) values present small

theorem hex_part_some (cs digits : List Char) (found : hexPart? cs = some digits) :
    ∃ mark, (mark = 'x' ∨ mark = 'X') ∧ cs = '0' :: mark :: digits := by
  unfold hexPart? at found
  split at found
  next =>
    cases found
    exact ⟨'x', .inl rfl, rfl⟩
  next =>
    cases found
    exact ⟨'X', .inr rfl, rfl⟩
  next => cases found

/-- The numerals are the numbers of a word as they may be written. -/
theorem numeral_iff (cs : List Char) (number : Nat) :
    numeral? cs = some number ↔ Spells cs number ∧ number < 1 <<< 64 := by
  constructor
  · intro read
    rw [numeral?] at read
    split at read
    next digits found =>
      obtain ⟨read, fits⟩ := (within_eq_some_iff 64 number _).mp read
      obtain ⟨mark, marked, rfl⟩ := hex_part_some cs digits found
      obtain ⟨zeros, padded⟩ := hexadecimal_padded digits number read
      exact ⟨.hexadecimal zeros marked padded, fits⟩
    next =>
      obtain ⟨read, fits⟩ := (within_eq_some_iff 64 number _).mp read
      obtain ⟨zeros, rfl⟩ := (decimal_iff cs number).mp read
      exact ⟨.decimal zeros number, fits⟩
  · rintro ⟨spelled, fits⟩
    exact numeral_spelled cs number spelled fits

end CoreBench.Text
