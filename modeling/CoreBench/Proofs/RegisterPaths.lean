import CoreBench.Proofs.Numerals
import CoreBench.Proofs.Occurrences
import CoreBench.Proofs.Sampling

/-!
The signals of the registers. The number of a register stands between parts of its path that are
the same for the whole file: no field can begin or end in digits, so filling in the number neither
makes nor breaks a field for the highest bit. Paths of one length hold numbers of one length, and
so no two registers of a file share a signal when the template has a place for the number.
-/

namespace CoreBench

namespace Text

section Replacing

variable {pattern : List Char} (fresh : List Char) {c : Char}

/-- What stands before a character that the pattern does not have is replaced on its own. -/
theorem replace_from_apart (skip : Nat) (before after : List Char) (outside : c ∉ pattern)
    (nonempty : pattern ≠ []) (inside : skip ≤ before.length) :
    replaceFrom pattern fresh skip (before ++ c :: after) =
      replaceFrom pattern fresh skip before ++ c :: replace pattern fresh after := by
  -- On what stands before: an occurrence that begins there also ends there, so what is passed over
  -- never reaches the character.
  induction before generalizing skip with
  | nil =>
      obtain rfl : skip = 0 := Nat.le_zero.mp inside
      have there : ¬ pattern.isPrefixOf (c :: after) = true := by
        rw [List.isPrefixOf_iff_prefix]
        intro here
        have empty : pattern <+: [] := prefix_apart outside here
        exact nonempty (List.prefix_nil.mp empty)
      rw [List.nil_append, replaceFrom, List.nil_append, replaceFrom, if_neg there, replace]
  | cons b before ih =>
      cases skip with
      | succ skip => exact ih skip (Nat.le_of_succ_le_succ inside)
      | zero =>
          have ends : pattern.isPrefixOf (b :: before ++ c :: after) = true ↔
              pattern.isPrefixOf (b :: before) = true := by
            rw [List.isPrefixOf_iff_prefix, List.isPrefixOf_iff_prefix]
            exact ⟨prefix_apart outside, fun here => here.trans (List.prefix_append _ _)⟩
          rw [List.cons_append] at ends ⊢
          rw [replaceFrom, replaceFrom]
          by_cases here : pattern.isPrefixOf (b :: before) = true
          · have short := (List.isPrefixOf_iff_prefix.mp here).length_le
            rw [List.length_cons] at short
            rw [if_pos here, if_pos (ends.mpr here), ih (pattern.length - 1) (by omega),
              List.append_assoc]
          · rw [if_neg here, if_neg fun found => here (ends.mp found), ih 0 (Nat.zero_le _),
              List.cons_append]

theorem replace_kept (gap after : List Char) (outside : ∀ c ∈ gap, c ∉ pattern)
    (nonempty : pattern ≠ []) :
    replace pattern fresh (gap ++ after) = gap ++ replace pattern fresh after := by
  induction gap with
  | nil => rfl
  | cons c gap ih =>
      obtain ⟨first, others⟩ := List.forall_mem_cons.mp outside
      rw [List.cons_append, List.cons_append, ← ih others]
      exact replace_from_apart fresh 0 [] (gap ++ after) first nonempty (Nat.zero_le _)

theorem replace_between (before gap after : List Char) (outside : ∀ c ∈ gap, c ∉ pattern)
    (nonempty : pattern ≠ []) (present : gap ≠ []) :
    replace pattern fresh (before ++ (gap ++ after)) =
      replace pattern fresh before ++ (gap ++ replace pattern fresh after) := by
  obtain ⟨c, inner, rfl⟩ := List.exists_cons_of_ne_nil present
  obtain ⟨first, others⟩ := List.forall_mem_cons.mp outside
  rw [List.cons_append, List.cons_append, ← replace_kept fresh inner after others nonempty]
  exact replace_from_apart fresh 0 before (inner ++ after) first nonempty (Nat.zero_le _)

/-- Between texts that have nothing of the pattern and are not empty, each piece is replaced on its
own. -/
theorem replace_intercalate (gap : List Char) (pieces : List (List Char))
    (outside : ∀ c ∈ gap, c ∉ pattern) (nonempty : pattern ≠ []) (present : gap ≠ []) :
    replace pattern fresh (gap.intercalate pieces) =
      gap.intercalate (pieces.map (replace pattern fresh)) := by
  induction pieces with
  | nil => rfl
  | cons piece rest ih =>
      cases rest with
      | nil => rw [List.intercalate_singleton, List.map_singleton, List.intercalate_singleton]
      | cons next rest =>
          rw [List.intercalate_cons_cons, List.append_assoc,
            replace_between fresh piece gap _ outside nonempty present, ih, List.map_cons,
            List.map_cons, List.map_cons, List.intercalate_cons_cons, List.append_assoc]

end Replacing

theorem intercalate_length (sep piece : List Char) (rest : List (List Char)) :
    (sep.intercalate (piece :: rest)).length =
      piece.length + rest.length * sep.length + rest.flatten.length := by
  induction rest generalizing piece with
  | nil =>
      rw [List.intercalate_singleton, List.length_nil, Nat.zero_mul]
      rfl
  | cons next rest ih =>
      rw [List.intercalate_cons_cons, List.length_append, List.length_append, ih,
        List.length_cons, Nat.add_one_mul, List.flatten_cons, List.length_append]
      omega

/-- The separator can be told from a text that it joins. -/
theorem intercalate_inj {sep sep' piece next : List Char} {rest : List (List Char)}
    (same : sep.intercalate (piece :: next :: rest) = sep'.intercalate (piece :: next :: rest)) :
    sep = sep' := by
  have long : sep.length = sep'.length := by
    have total := congrArg List.length same
    rw [intercalate_length, intercalate_length, Nat.add_right_cancel_iff,
      Nat.add_left_cancel_iff] at total
    exact Nat.eq_of_mul_eq_mul_left (Nat.succ_pos rest.length) total
  rw [List.intercalate_cons_cons, List.intercalate_cons_cons, List.append_assoc,
    List.append_assoc, List.append_cancel_left_eq] at same
  exact (List.append_inj same long).1

end Text

namespace Wiring

/-- What the paths of a file have around the numbers of its registers. -/
def surroundings (template : String) (wordSize : Nat) : List (List Char) :=
  (Text.split indexField template.toList).map
    (Text.replace msbField (Nat.toDigits 10 (wordSize - 1)))

theorem digits_outside (number : Nat) : ∀ c ∈ Nat.toDigits 10 number, c ∉ msbField := by
  have letters : msbField.all (fun c => !c.isDigit) = true := by decide
  intro c member field
  have other : c.isDigit = false := by simpa using List.all_eq_true.mp letters c field
  exact Text.decimal_not_mem _ number c (Text.digits_decimal number) other member

/-- The two replacements do not get in each other's way: the highest bit is filled in as if the
number of the register had never been there. -/
theorem expand_chars (template : String) (index wordSize : Nat) :
    (expand template index wordSize).toList =
      (Nat.toDigits 10 index).intercalate (surroundings template wordSize) := by
  rw [expand, String.toList_ofList, Text.replace_eq_intercalate indexField, surroundings]
  exact Text.replace_intercalate _ _ _ (digits_outside index) (by decide) Nat.toDigits_ne_nil

theorem expand_inj {template : String} {index index' wordSize : Nat}
    (numbered : indexField <:+: template.toList)
    (same : expand template index wordSize = expand template index' wordSize) :
    index = index' := by
  obtain ⟨piece, next, rest, parts⟩ :=
    Text.split_many indexField template.toList (by decide) numbered
  have chars := congrArg String.toList same
  rw [expand_chars, expand_chars, surroundings, parts, List.map_cons, List.map_cons] at chars
  have digits : Nat.toDigits 10 index = Nat.toDigits 10 index' := Text.intercalate_inj chars
  refine Text.decimal_unique (Text.digits_decimal index) ?_
  rw [digits]
  exact Text.digits_decimal index'

/-- Without a place for the number all registers have the same path. -/
theorem expand_unnumbered {template : String} (index index' wordSize : Nat)
    (unnumbered : ¬ indexField <:+: template.toList) :
    expand template index wordSize = expand template index' wordSize := by
  have whole := (Text.split_whole_iff indexField template.toList (by decide)).mpr unnumbered
  rw [← String.toList_inj, expand_chars, expand_chars, surroundings, whole, List.map_singleton,
    List.intercalate_singleton, List.intercalate_singleton]

theorem expand_injective_iff (template : String) (wordSize : Nat) :
    (Function.Injective fun index => expand template index wordSize) ↔
      indexField <:+: template.toList := by
  constructor
  · intro injective
    by_contra unnumbered
    exact absurd (injective (expand_unnumbered 0 1 wordSize unnumbered)) Nat.zero_ne_one
  · intro numbered index index' same
    exact expand_inj numbered same

end Wiring

namespace Processor

/-- The registers of a file have paths of their own exactly if the template has a place for the
number of the register, and then no two places of a sample that belong to registers of the file
ask for the same signal. -/
theorem registers_sampled_apart (config : Config) (file : RegisterFile) :
    (∀ wordSize, (Function.Injective fun index => config.wiring.registerPath file index wordSize) ↔
      Wiring.indexField <:+: (config.wiring.template file).toList) ∧
    (Wiring.indexField <:+: (config.wiring.template file).toList →
      ∀ i < config.arch.count file, ∀ j < config.arch.count file,
        sampledPath config (config.arch.place file i) =
          sampledPath config (config.arch.place file j) → i = j) := by
  refine ⟨fun wordSize => Wiring.expand_injective_iff _ wordSize, ?_⟩
  intro numbered i present j present' same
  rw [sampled_path_place config file i present, sampled_path_place config file j present'] at same
  exact Wiring.expand_inj numbered same

/-- The numbers of the general registers run into each other, into a one and into the highest bit.
The place for the numbers of the special registers is broken by the one for the highest bit. -/
def crowded : Config where
  arch := { wordSize := 12, generalCount := 12, specialCount := 2 }
  wiring :=
    { general := "\x7bmsb\x7d\x7bindex\x7d1\x7bindex\x7d"
      special := "s\x7bin\x7bmsb\x7ddex\x7d" }

theorem crowded_sampled_apart :
    Wiring.indexField <:+: crowded.wiring.general.toList ∧
      sampledPath crowded 2 = "11111" ∧ sampledPath crowded 12 = "1111111" ∧
      (∀ i < 12, ∀ j < 12, sampledPath crowded (1 + i) = sampledPath crowded (1 + j) → i = j) ∧
      (Function.Injective fun index => crowded.wiring.registerPath .general index 0) ∧
      ¬ Function.Injective fun index => crowded.wiring.registerPath .special index 12 := by
  have numbered : Wiring.indexField <:+: crowded.wiring.general.toList := by decide
  have unnumbered : ¬ Wiring.indexField <:+: crowded.wiring.special.toList := by decide
  obtain ⟨apart, sampled⟩ := registers_sampled_apart crowded .general
  refine ⟨numbered, by decide +kernel, by decide +kernel, sampled numbered,
    (apart 0).mpr numbered, ?_⟩
  intro injective
  exact unnumbered (((registers_sampled_apart crowded .special).1 12).mp injective)

end Processor

end CoreBench
