import CoreBench.Proofs.BitSums
import CoreBench.Proofs.Drafting
import CoreBench.Proofs.Rendering
import CoreBench.Proofs.Updates

/-!
How the parameters of directives may be written. A comparison shows its operands with the
relation between them and white space anywhere around them, a change of interrupt lines
shows its mask and its values as numbers in either base. Both are read as what they show.
-/

namespace CoreBench

/-- White space that does not end the line. -/
def Text.Gap (gap : List Char) : Prop :=
  ∀ c ∈ gap, isBlank c = true ∧ c ≠ '\n'

theorem Text.Gap.blank (gap : List Char) (inner : Gap gap) : ∀ c ∈ gap, isBlank c = true :=
  fun c member => (inner c member).1

theorem Text.Gap.spaces (count : Nat) : Gap (List.replicate count ' ') := by
  intro c member
  rw [List.eq_of_mem_replicate member]
  decide

theorem Text.Gap.absent (gap : List Char) (inner : Gap gap) (sep : Char)
    (apart : isBlank sep = false ∨ sep = '\n') : sep ∉ gap := by
  intro member
  obtain ⟨blank, other⟩ := inner sep member
  rcases apart with solid | rfl
  · rw [blank] at solid
    cases solid
  · exact other rfl

/-- A character that is in no parameters, and cuts a text into lines or statements. -/
structure Separator (sep : Char) : Prop where
  solid : Text.isBlank sep = false ∨ sep = '\n'
  unlettered : sep.isAlphanum = false
  unwritten : Operand.writes sep = false
  apart : sep ∉ "=!->#@()".toList

theorem Separator.line : Separator '\n' :=
  ⟨.inr rfl, by decide, by decide, by decide⟩

theorem Separator.dollar : Separator '$' :=
  ⟨.inl (by decide), by decide, by decide, by decide⟩

theorem Separator.ne (sep : Char) (separator : Separator sep) (c : Char)
    (used : c ∈ "=!->#@()".toList) : sep ≠ c := by
  rintro rfl
  exact separator.apart used

theorem Separator.unspelled (sep : Char) (separator : Separator sep) (cs : List Char)
    (letters : ∀ c ∈ cs, c.isAlphanum = true) : sep ∉ cs := by
  intro member
  exact Text.ne_of_alphanum sep sep (letters sep member) separator.unlettered rfl

theorem Relation.to_text_subset (relation : Relation) :
    relation.toText.toList ⊆ "=!->#@()".toList := by
  cases relation with
  | equal => decide
  | different => decide

theorem Relation.cut_plain (relation : Relation) (before after : List Char)
    (plain : ∀ c ∈ before, c ≠ '=' ∧ c ≠ '!') :
    cut (before ++ (relation.toText.toList ++ after)) = some (before, relation, after) := by
  induction before with
  | nil =>
      cases relation with
      | equal => rfl
      | different => rfl
  | cons c before ih =>
      obtain ⟨first, plain⟩ := List.forall_mem_cons.mp plain
      rw [List.cons_append, cut.eq_3 _ _ (by simp [first]) (by simp [first]), ih plain]
      rfl

namespace Comparison

/-- A comparison as it is written, without white space at its ends. -/
def shown (comparison : Comparison) (inner other : List Char) : List Char :=
  comparison.left.toText.toList ++ (inner ++ (comparison.relation.toText.toList ++
    (other ++ comparison.right.toText.toList)))

theorem shown_trimmed (comparison : Comparison) (inner other : List Char) :
    Text.trim (comparison.shown inner other) = comparison.shown inner other := by
  apply Text.trim_eq_self
  · intro c first
    rw [shown, List.head?_append_of_ne_nil _ comparison.left.to_text_nonempty] at first
    exact comparison.left.to_text_solid c (List.mem_of_head? first)
  · intro c last
    simp only [shown, ← List.append_assoc] at last
    rw [List.getLast?_append_of_ne_nil _ comparison.right.to_text_nonempty] at last
    exact comparison.right.to_text_solid c (List.mem_of_getLast? last)

theorem shown_absent (comparison : Comparison) (inner other : List Char)
    (gaps : Text.Gap inner ∧ Text.Gap other) (sep : Char) (separator : Separator sep) :
    sep ∉ comparison.shown inner other := by
  have unrelated : sep ∉ comparison.relation.toText.toList := fun member =>
    separator.apart (comparison.relation.to_text_subset member)
  simp only [shown, List.mem_append, not_or]
  exact ⟨comparison.left.to_text_absent sep separator.unwritten,
    gaps.1.absent inner sep separator.solid, unrelated, gaps.2.absent other sep separator.solid,
    comparison.right.to_text_absent sep separator.unwritten⟩

theorem parse_shown (arch : Arch) (comparison : Comparison) (inner other : List Char)
    (left : comparison.left.Within arch) (right : comparison.right.Within arch)
    (short : arch.wordSize ≤ 64) (words : ∀ file, arch.count file ≤ wordLimit)
    (gaps : Text.Gap inner ∧ Text.Gap other) :
    parse arch {} (comparison.shown inner other) = .ok comparison := by
  have plain : ∀ c ∈ comparison.left.toText.toList ++ inner, c ≠ '=' ∧ c ≠ '!' := by
    have apart (sep : Char) (unwritten : Operand.writes sep = false)
        (solid : Text.isBlank sep = false) : sep ∉ comparison.left.toText.toList ++ inner := by
      rw [List.mem_append, not_or]
      exact ⟨comparison.left.to_text_absent sep unwritten, gaps.1.absent inner sep (.inl solid)⟩
    intro c member
    exact ⟨fun same => apart '=' (by decide) (by decide) (same ▸ member),
      fun same => apart '!' (by decide) (by decide) (same ▸ member)⟩
  have cut := comparison.relation.cut_plain _ (other ++ comparison.right.toText.toList) plain
  rw [List.append_assoc] at cut
  refine (parse_ok_iff arch {} _ comparison).mpr
    ⟨comparison.shown_absent inner other gaps '\n' .line, _, _, cut, ?_, ?_⟩
  · apply Operand.parse_to_text arch _ _ left short words
    rw [Text.trim_append_blanks inner _ gaps.1.blank, Text.trim_solid _ comparison.left.to_text_solid]
  · apply Operand.parse_to_text arch _ _ right short words
    rw [Text.trim_blanks_append other _ gaps.2.blank,
      Text.trim_solid _ comparison.right.to_text_solid]

end Comparison

theorem IrqUpdate.parse_spelled (arch : Arch) (update : IrqUpdate) (mask value : List Char)
    (few : arch.irqLines ≤ 64) (inside : update.mask < 2 ^ arch.irqLines)
    (fits : update.value < wordLimit) (masked : Text.Spells mask update.mask)
    (valued : Text.Spells value update.value) :
    parse arch (mask ++ '-' :: ('>' :: value)) = .ok update := by
  have word : update.mask < wordLimit := by
    rw [wordLimit_eq, Nat.one_shiftLeft]
    exact Nat.lt_of_lt_of_le inside (Nat.pow_le_pow_right (by decide) few)
  exact (parse_ok_iff arch _ update).mpr ⟨mask, value, rfl,
    ⟨mask, Text.padded_self mask, masked, word⟩, ⟨value, Text.padded_self value, valued, fits⟩,
    fun _ set => test_bit_below inside set⟩

namespace Action

/-- What a core can do. -/
def Within (arch : Arch) : Action → Prop
  | compare comparison => comparison.left.Within arch ∧ comparison.right.Within arch
  | interrupt update => update.mask < 2 ^ arch.irqLines ∧ update.value < wordLimit
  | finish => True

instance (arch : Arch) : (action : Action) → Decidable (action.Within arch)
  | compare comparison =>
      inferInstanceAs (Decidable (comparison.left.Within arch ∧ comparison.right.Within arch))
  | interrupt update =>
      inferInstanceAs (Decidable (update.mask < 2 ^ arch.irqLines ∧ update.value < wordLimit))
  | finish => inferInstanceAs (Decidable True)

/-- The names and the parameters that an action may be written with. -/
inductive Spelled : Action → List Char → List Char → Prop where
  | finish : Spelled .finish "end".toList []
  | compare {comparison : Comparison} {kind before inner other after : List Char}
      (named : kind = "assert".toList ∨ kind = "test".toList)
      (ends : Text.Gap before ∧ Text.Gap after) (gaps : Text.Gap inner ∧ Text.Gap other) :
      Spelled (.compare comparison) kind (before ++ (comparison.shown inner other ++ after))
  | interrupt {update : IrqUpdate} {mask value : List Char}
      (masked : Text.Spells mask update.mask) (valued : Text.Spells value update.value) :
      Spelled (.interrupt update) "irq".toList (mask ++ '-' :: ('>' :: value))

/-- The parameters of an action are read as the action. -/
theorem reads_spelled (arch : Arch) (action : Action) (kind content : List Char)
    (short : arch.wordSize ≤ 64) (few : arch.irqLines ≤ 64)
    (words : ∀ file, arch.count file ≤ wordLimit) (within : action.Within arch)
    (spelled : action.Spelled kind content) : action.Reads arch {} kind (Text.trim content) := by
  cases spelled with
  | finish => exact .finish _
  | @compare comparison _ before inner other after named ends gaps =>
      rw [Text.trim_blanks_append _ _ ends.1.blank, Text.trim_append_blanks _ _ ends.2.blank,
        comparison.shown_trimmed]
      exact .compare named
        (comparison.parse_shown arch inner other within.1 within.2 short words gaps)
  | @interrupt update mask value masked valued =>
      have solid : ∀ c ∈ mask ++ '-' :: ('>' :: value), Text.isBlank c = false := by
        simp only [List.forall_mem_append, List.forall_mem_cons]
        exact ⟨fun c member => Text.alphanum_solid c (Text.spelled_alphanum _ _ masked c member),
          by decide, by decide,
          fun c member => Text.alphanum_solid c (Text.spelled_alphanum _ _ valued c member)⟩
      rw [Text.trim_solid _ solid]
      exact .interrupt (update.parse_spelled arch mask value few within.1 within.2 masked valued)

/-- The parameters are part of one line and of one statement. -/
theorem spelled_absent (action : Action) (kind content : List Char) (sep : Char)
    (spelled : action.Spelled kind content) (separator : Separator sep) : sep ∉ content := by
  cases spelled with
  | finish => exact List.not_mem_nil
  | @compare comparison _ before inner other after named ends gaps =>
      simp only [List.mem_append, not_or]
      exact ⟨ends.1.absent before sep separator.solid,
        comparison.shown_absent inner other gaps sep separator,
        ends.2.absent after sep separator.solid⟩
  | @interrupt update mask value masked valued =>
      simp only [List.mem_append, List.mem_cons, not_or]
      exact ⟨separator.unspelled sep mask (Text.spelled_alphanum _ _ masked),
        separator.ne sep '-' (by decide), separator.ne sep '>' (by decide),
        separator.unspelled sep value (Text.spelled_alphanum _ _ valued)⟩

end Action

end CoreBench
