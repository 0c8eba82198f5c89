import CoreBench.Proofs.Ranges

/-!
Which texts are registers and which are constants. A register is a letter in either case, a
decimal number and a range of bits; a constant is a numeral, and brackets behind it stand empty.
Reading finds exactly these and, behind the first two letters of its name, the program counter.
-/

namespace CoreBench

/-- The letters that names of registers of the file start with. -/
def RegisterFile.letters : RegisterFile → List Char
  | general => ['r', 'R']
  | special => ['s', 'S']

namespace Operand

/-- The letter of a name tells the file. -/
theorem letter_tells (letter : Char) (file : RegisterFile) (written digits : List Char) :
    (if letter = 'r' ∨ letter = 'R' then some (RegisterFile.general, written)
      else if letter = 's' ∨ letter = 'S' then some (RegisterFile.special, written)
      else none) = some (file, digits) ↔ letter ∈ file.letters ∧ written = digits := by
  cases file with
  | general => grind [RegisterFile.letters]
  | special => grind [RegisterFile.letters]

theorem register_name_iff (name : List Char) (file : RegisterFile) (digits : List Char) :
    registerName? name = some (file, digits) ↔
      ∃ letter ∈ file.letters, name = letter :: digits ∧ digits ≠ [] ∧
        ∀ c ∈ digits, Text.isDecimalDigit c = true := by
  cases name with
  | nil => simp [registerName?]
  | cons first rest =>
      rw [registerName?, Option.ite_none_left_eq_some, letter_tells, Bool.not_eq_true,
        Bool.or_eq_false_iff, List.isEmpty_eq_false_iff, Bool.not_eq_false', List.all_eq_true]
      constructor
      · rintro ⟨⟨nonempty, decimal⟩, named, rfl⟩
        exact ⟨first, named, rfl, nonempty, decimal⟩
      · rintro ⟨letter, named, same, nonempty, decimal⟩
        cases same
        exact ⟨⟨nonempty, decimal⟩, named, rfl⟩

theorem letter_apart (file : RegisterFile) :
    ∀ letter ∈ file.letters, letter.isDigit = false ∧ letter.toLower ≠ 'p' := by
  cases file with
  | general => simp [RegisterFile.letters]
  | special => simp [RegisterFile.letters]

theorem letter_alphanum (file : RegisterFile) :
    ∀ letter ∈ file.letters, letter.isAlphanum = true := by
  cases file with
  | general => simp [RegisterFile.letters]
  | special => simp [RegisterFile.letters]

theorem register_name_decimal (file : RegisterFile) (letter : Char) (digits : List Char) (index : Nat)
    (named : letter ∈ file.letters) (decimal : Text.Decimal digits index) :
    registerName? (letter :: digits) = some (file, digits) ∧
      ∀ c ∈ letter :: digits, c.isAlphanum = true := by
  have digital := Text.decimal_digits digits index decimal
  constructor
  · exact (register_name_iff _ file digits).mpr ⟨letter, named, rfl,
      Text.decimal_nonempty digits index decimal,
      fun c member => Text.isDecimalDigit_of_isDigit c (digital c member)⟩
  · rw [List.forall_mem_cons]
    exact ⟨letter_alphanum file letter named,
      fun c member => (Text.alphanum_iff c).mpr (.inr (digital c member))⟩

theorem numeral_head (name : List Char) (numeral : isNumeral name = true) :
    ∃ c rest, name = c :: rest ∧ c.isDigit = true := by
  rw [isNumeral, Bool.or_eq_true, Option.isSome_iff_exists, Bool.and_eq_true] at numeral
  rcases numeral with ⟨digits, found⟩ | ⟨nonempty, digits⟩
  · obtain ⟨mark, _, rfl⟩ := Text.hex_part_some name digits found
    exact ⟨'0', mark :: digits, rfl, rfl⟩
  · cases name with
    | nil => cases nonempty
    | cons c rest => exact ⟨c, rest, rfl, List.all_eq_true.mp digits c List.mem_cons_self⟩

theorem numeral_of_spelled (name : List Char) (value : Nat) (spelled : Text.Spells name value) :
    isNumeral name = true := by
  rw [isNumeral, Bool.or_eq_true]
  cases spelled with
  | decimal zeros =>
      have digits : ∀ c ∈ List.replicate zeros '0' ++ Nat.toDigits 10 value, c.isDigit = true :=
        Text.digits_of_decimal zeros value
      right
      rw [Bool.and_eq_true, List.all_eq_true]
      exact ⟨by simp [Nat.toDigits_ne_nil], digits⟩
  | hexadecimal zeros marked small =>
      left
      rcases marked with rfl | rfl
      · rfl
      · rfl

theorem numeral_names_nothing (name : List Char) (numeral : isNumeral name = true) :
    registerName? name = none := by
  obtain ⟨c, rest, rfl, digit⟩ := numeral_head name numeral
  rw [Option.eq_none_iff_forall_ne_some]
  rintro ⟨file, digits⟩ read
  obtain ⟨letter, named, same, _⟩ := (register_name_iff _ file digits).mp read
  cases same
  rw [(letter_apart file c named).1] at digit
  cases digit

/-- Whether a base starts as the program counter does. -/
def StartsCounter (name : List Char) : Prop :=
  Text.lower (name.take 2) = ['p', 'c']

theorem counter_head (name : List Char) (counter : StartsCounter name) :
    ∃ c rest, name = c :: rest ∧ c.toLower = 'p' := by
  cases name with
  | nil => cases counter
  | cons c rest => exact ⟨c, rest, rfl, (List.cons.inj counter).1⟩

theorem counter_not_numeral (name : List Char) (counter : StartsCounter name) :
    isNumeral name = false := by
  obtain ⟨c, rest, rfl, letter⟩ := counter_head name counter
  cases numeral : isNumeral (c :: rest) with
  | false => rfl
  | true =>
      obtain ⟨digit, _, same, isDigit⟩ := numeral_head _ numeral
      cases same
      have plain : c.isUpper = false := by
        have range := Text.digit_range c isDigit
        cases upper : c.isUpper with
        | false => rfl
        | true =>
            have := Text.upper_range c upper
            omega
      rw [Text.to_lower_of_not_upper c plain] at letter
      subst letter
      cases isDigit

theorem counter_names_nothing (name : List Char) (counter : StartsCounter name) :
    registerName? name = none := by
  obtain ⟨c, rest, rfl, letter⟩ := counter_head name counter
  rw [Option.eq_none_iff_forall_ne_some]
  rintro ⟨file, digits⟩ read
  obtain ⟨_, named, same, _⟩ := (register_name_iff _ file digits).mp read
  cases same
  exact (letter_apart file c named).2 letter

theorem of_reference_named (arch : Arch) (reference : Reference) (written : String)
    (file : RegisterFile) (digits : List Char)
    (named : registerName? reference.base.toList = some (file, digits)) :
    ofReference arch reference written = ofRegister arch reference file digits := by
  simp only [ofReference, named]

/-- Only registers have ranges. -/
theorem of_reference_ranged (arch : Arch) (reference : Reference) (written : String)
    (unnamed : registerName? reference.base.toList = none)
    (ranged : ¬ (reference.first = none ∧ reference.last = none)) :
    ofReference arch reference written = .error (.unknown reference.toText written) := by
  have present : (reference.first.isSome || reference.last.isSome) = true := by
    rw [← Bool.not_eq_false, Bool.or_eq_false_iff, Option.isSome_eq_false_iff,
      Option.isNone_iff_eq_none, Option.isSome_eq_false_iff, Option.isNone_iff_eq_none]
    exact ranged
  simp only [ofReference, unnamed, present, ↓reduceIte]

theorem of_reference_numeral (arch : Arch) (reference : Reference) (written : String)
    (operand : Operand) (numeral : isNumeral reference.base.toList = true)
    (first : reference.first = none) (last : reference.last = none) :
    ofReference arch reference written = .ok operand ↔
      ∃ value < wordLimit, Text.Spells reference.base.toList value ∧ operand = .constant value := by
  simp only [ofReference, numeral_names_nothing _ numeral, first, last, Option.isSome_none,
    Bool.or_self, Bool.false_eq_true, numeral, ↓reduceIte]
  cases read : Text.numeral? reference.base.toList with
  | none =>
      simp only [reduceCtorEq, false_iff]
      rintro ⟨value, fits, spelled, _⟩
      rw [Text.numeral_spelled _ value spelled (wordLimit_eq ▸ fits)] at read
      cases read
  | some value =>
      simp only [Except.ok.injEq]
      constructor
      · rintro rfl
        obtain ⟨spelled, fits⟩ := (Text.numeral_iff _ value).mp read
        exact ⟨value, wordLimit_eq ▸ fits, spelled, rfl⟩
      · rintro ⟨number, fits, spelled, rfl⟩
        rw [Text.numeral_spelled _ number spelled (wordLimit_eq ▸ fits)] at read
        cases read
        rfl

theorem of_reference_word (arch : Arch) (reference : Reference) (written : String)
    (operand : Operand) (unnamed : registerName? reference.base.toList = none)
    (word : isNumeral reference.base.toList = false) (first : reference.first = none)
    (last : reference.last = none) :
    ofReference arch reference written = .ok operand ↔
      StartsCounter reference.base.toList ∧ operand = .programCounter := by
  simp only [ofReference, unnamed, first, last, Option.isSome_none, Bool.or_self,
    Bool.false_eq_true, word, ↓reduceIte, StartsCounter]
  split
  next counter => simp [counter, eq_comm]
  next other => simp [other]

/-- What a base stands for: a register, or, without a range, a constant or the counter. -/
theorem of_reference_ok_iff (arch : Arch) (reference : Reference) (written : String)
    (operand : Operand) :
    ofReference arch reference written = .ok operand ↔
      (∃ file digits, registerName? reference.base.toList = some (file, digits) ∧
        ofRegister arch reference file digits = .ok operand) ∨
      (reference.first = none ∧ reference.last = none ∧
        ((∃ value < wordLimit, Text.Spells reference.base.toList value ∧ operand = .constant value) ∨
          (StartsCounter reference.base.toList ∧ operand = .programCounter))) := by
  constructor
  · intro read
    cases name : registerName? reference.base.toList with
    | some found =>
        obtain ⟨file, digits⟩ := found
        rw [of_reference_named arch reference written file digits name] at read
        exact .inl ⟨file, digits, rfl, read⟩
    | none =>
        by_cases plain : reference.first = none ∧ reference.last = none
        · obtain ⟨first, last⟩ := plain
          refine .inr ⟨first, last, ?_⟩
          cases numeral : isNumeral reference.base.toList with
          | true => exact .inl ((of_reference_numeral arch _ written _ numeral first last).mp read)
          | false => exact .inr ((of_reference_word arch _ written _ name numeral first last).mp read)
        · rw [of_reference_ranged arch reference written name plain] at read
          cases read
  · rintro (⟨file, digits, name, read⟩ | ⟨first, last, constant | counter⟩)
    · rw [of_reference_named arch reference written file digits name]
      exact read
    · obtain ⟨value, fits, spelled, rfl⟩ := constant
      exact (of_reference_numeral arch _ written _ (numeral_of_spelled _ value spelled) first last).mpr
        ⟨value, fits, spelled, rfl⟩
    · exact (of_reference_word arch _ written _ (counter_names_nothing _ counter.1)
        (counter_not_numeral _ counter.1) first last).mpr counter

theorem parse_taken_apart (arch : Arch) (cs : List Char) (reference : Reference)
    (read : Reference.ofChars? (Text.trim cs) = some reference) :
    parse arch {} cs = ofReference arch reference (String.ofList (Text.trim cs)) := by
  rw [parse, AliasTable.resolve, read]
  rfl

theorem opened_names_nothing (name : List Char) (opened : '[' ∈ name) : registerName? name = none := by
  rw [Option.eq_none_iff_forall_ne_some]
  rintro ⟨file, digits⟩ read
  obtain ⟨letter, named, rfl, _, decimal⟩ := (register_name_iff name file digits).mp read
  rcases List.mem_cons.mp opened with rfl | member
  · cases file with
    | general => simp [RegisterFile.letters] at named
    | special => simp [RegisterFile.letters] at named
  · exact absurd (decimal '[' member) (by decide +kernel)

/-- Brackets that do not close are read over behind `pc` and nowhere else. -/
theorem parse_unclosed_iff (arch : Arch) (cs : List Char) (operand : Operand)
    (unclosed : Reference.ofChars? (Text.trim cs) = none) :
    parse arch {} cs = .ok operand ↔ StartsCounter (Text.trim cs) ∧ operand = .programCounter := by
  have opened := ((Reference.of_chars_none_iff _ (Text.trim_trim cs)).mp unclosed).1
  have resolved : AliasTable.resolve {} cs = { base := String.ofList (Text.trim cs) } := by
    rw [AliasTable.resolve, unclosed]
  rw [parse, resolved, of_reference_ok_iff, String.toList_ofList, opened_names_nothing _ opened]
  constructor
  · rintro (⟨_, _, ⟨⟩, _⟩ | ⟨_, _, ⟨value, _, spelled, _⟩ | counter⟩)
    · exact absurd (Text.spelled_alphanum _ value spelled '[' opened) (by decide)
    · exact counter
  · exact fun counter => .inr ⟨rfl, rfl, .inr counter⟩

/-- The texts of registers and constants on a core with registers of some width. -/
inductive Written (wordSize : Nat) : List Char → Operand → Prop where
  | register {file : RegisterFile} {letter : Char} {digits gap part : List Char}
      {index hi lo : Nat} {first last : Option Nat} (named : letter ∈ file.letters)
      (decimal : Text.Decimal digits index) (blank : ∀ c ∈ gap, Text.isBlank c = true)
      (range : Reference.Range part first last) (bits : selected wordSize first last = (hi, lo)) :
      Written wordSize (letter :: (digits ++ (gap ++ part))) (register file ⟨index, hi, lo⟩)
  | constant {digits gap part : List Char} {value : Nat} (spelled : Text.Spells digits value)
      (blank : ∀ c ∈ gap, Text.isBlank c = true) (empty : Reference.Range part none none) :
      Written wordSize (digits ++ (gap ++ part)) (constant value)

theorem Written.not_counter {wordSize : Nat} {text : List Char} {operand : Operand}
    (written : Written wordSize text operand) : operand ≠ .programCounter := by
  cases written with
  | register => exact Operand.noConfusion
  | constant => exact Operand.noConfusion

/-- What is read and is not the program counter is written as a register or a constant. -/
theorem written_of_parse (arch : Arch) (cs : List Char) (operand : Operand)
    (read : parse arch {} cs = .ok operand) (other : operand ≠ .programCounter) :
    Written arch.wordSize (Text.trim cs) operand := by
  cases apart : Reference.ofChars? (Text.trim cs) with
  | none => exact absurd ((parse_unclosed_iff arch cs operand apart).mp read).2 other
  | some reference =>
      obtain ⟨name, gap, part, whole, _, blank, _, range, base⟩ :=
        (Reference.of_text_iff cs reference).mp apart
      rw [parse_taken_apart arch cs reference apart, of_reference_ok_iff, base,
        String.toList_ofList] at read
      rw [whole]
      rcases read with ⟨file, digits, named, read⟩ | ⟨start, finish, constant | counter⟩
      · obtain ⟨letter, told, rfl, _, _⟩ := (register_name_iff name file digits).mp named
        obtain ⟨index, hi, lo, number, _, bounds, _, rfl⟩ :=
          (of_register_ok_iff arch reference file digits operand).mp read
        obtain ⟨first, last, one, another, bits⟩ := bounds_selected arch _ _ hi lo bounds
        exact .register told
          ((Text.decimal_iff digits index).mp ((Text.within_eq_some_iff 64 index _).mp number).1)
          blank ((Reference.range_iff part first last).mpr ⟨_, _, range, one, another⟩) bits
      · obtain ⟨value, _, spelled, rfl⟩ := constant
        refine .constant spelled blank ((Reference.range_iff part none none).mpr
          ⟨_, _, range, ?_, ?_⟩)
        · exact (Reference.position_none_iff _).mpr start
        · exact (Reference.position_none_iff _).mpr finish
      · exact absurd counter.2 other

theorem parse_of_written (arch : Arch) (cs : List Char) (operand : Operand)
    (words : ∀ file, arch.count file ≤ wordLimit) (short : arch.wordSize ≤ 1 <<< 32)
    (written : Written arch.wordSize (Text.trim cs) operand) (within : operand.Within arch) :
    parse arch {} cs = .ok operand := by
  generalize whole : Text.trim cs = text at written
  cases written with
  | @register file letter digits gap part index hi lo first last named decimal blank range bits =>
      obtain ⟨present, order, inside⟩ := within
      obtain ⟨start, finish, written, one, another⟩ := (Reference.range_iff part first last).mp range
      obtain ⟨name, letters⟩ := register_name_decimal file letter digits index named decimal
      have number : Text.within 64 (Text.decimal? digits) = some index := by
        rw [Text.within_eq_some_iff, Text.decimal_iff, ← wordLimit_eq]
        exact ⟨decimal, Nat.lt_of_lt_of_le present (words file)⟩
      rw [parse_taken_apart arch cs _ (Reference.of_name cs (letter :: digits) gap part start finish
        whole letters blank written), of_reference_ok_iff, String.toList_ofList]
      refine .inl ⟨file, digits, name, (of_register_ok_iff arch _ file digits _).mpr
        ⟨index, hi, lo, number, present, ?_, order, rfl⟩⟩
      exact bounds_of_selected arch start finish first last hi lo short one another bits order inside
  | @constant digits gap part value spelled blank empty =>
      obtain ⟨start, finish, written, one, another⟩ := (Reference.range_iff part none none).mp empty
      rw [parse_taken_apart arch cs _ (Reference.of_name cs digits gap part start finish whole
        (Text.spelled_alphanum digits value spelled) blank written), of_reference_ok_iff,
        String.toList_ofList]
      exact .inr ⟨(Reference.position_none_iff start).mp one,
        (Reference.position_none_iff finish).mp another, .inl ⟨value, within, spelled, rfl⟩⟩

/-- The registers and constants of a core are read from the texts that are written as one, and
from no others. -/
theorem parse_exactly_written (arch : Arch) (cs : List Char) (operand : Operand)
    (words : ∀ file, arch.count file ≤ wordLimit) (short : arch.wordSize ≤ 1 <<< 32) :
    parse arch {} cs = .ok operand ∧ operand ≠ .programCounter ↔
      Written arch.wordSize (Text.trim cs) operand ∧ operand.Within arch := by
  constructor
  · rintro ⟨read, other⟩
    exact ⟨written_of_parse arch cs operand read other, parse_within arch {} cs operand read⟩
  · rintro ⟨written, within⟩
    exact ⟨parse_of_written arch cs operand words short written within, written.not_counter⟩

/-- White space, capitals and leading zeros all at once. -/
theorem padded_slice_written :
    (∀ file, ({} : Arch).count file ≤ wordLimit) ∧ ({} : Arch).wordSize ≤ 1 <<< 32 ∧
      parse {} {} " S02 [ 07:3\t]".toList = .ok (.register .special ⟨2, 7, 3⟩) := by
  have words : ∀ file, ({} : Arch).count file ≤ wordLimit := by
    intro file
    cases file with
    | general => decide
    | special => decide
  have short : ({} : Arch).wordSize ≤ 1 <<< 32 := by decide
  have whole : Text.trim " S02 [ 07:3\t]".toList =
      'S' :: ("02".toList ++ ([' '] ++ '[' :: ((([' '] ++ ("07".toList ++ [])) ++
        ':' :: ([] ++ ("3".toList ++ ['\t']))) ++ [']']))) := by
    decide +kernel
  refine ⟨words, short, ((parse_exactly_written {} _ _ words short).mpr ⟨?_, by decide⟩).1⟩
  rw [whole]
  refine .register (by decide) ⟨1, by decide⟩ ?_ (.divided (.number ?_ ?_ ⟨1, by decide⟩)
    (.number ?_ ?_ ⟨0, by decide⟩)) rfl
  all_goals exact List.all_eq_true.mp (by decide)

end Operand

end CoreBench
