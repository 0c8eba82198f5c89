import CoreBench.Proofs.Characters
import CoreBench.Proofs.Cutting
import CoreBench.Proofs.Words
import CoreBench.TimeUnit

/-!
A length of time reads the same with its white space left out. A dump may therefore
break it into words at any place where the text has white space.
-/

namespace CoreBench

namespace Text

/-- Everything but white space. -/
def solidPart (cs : List Char) : List Char :=
  cs.filter fun c => !isBlank c

theorem split_flatten (cs : List Char) : (cs.splitOnP isBlank).flatten = solidPart cs := by
  induction cs with
  | nil => rfl
  | cons c cs ih =>
      rw [List.splitOnP_cons_eq_if_modifyHead]
      by_cases blank : isBlank c
      · simp [blank, ih, solidPart]
      · obtain ⟨first, rest, split⟩ := List.exists_cons_of_ne_nil (List.splitOnP_ne_nil isBlank cs)
        rw [split, List.flatten_cons] at ih
        simp [blank, split, solidPart, ih]

theorem words_flatten (cs : List Char) : (words cs).flatten = solidPart cs := by
  rw [← split_flatten, words, List.flatten_filter_not_isEmpty]

theorem solid_part_drop (cs : List Char) : solidPart (cs.dropWhile isBlank) = solidPart cs := by
  induction cs with
  | nil => rfl
  | cons c cs ih =>
      by_cases blank : isBlank c
      · rw [List.dropWhile_cons_of_pos blank, ih, solidPart, solidPart,
          List.filter_cons_of_neg (by simp [blank])]
      · rw [List.dropWhile_cons_of_neg blank]

theorem solid_part_trim (cs : List Char) : solidPart (trim cs) = solidPart cs := by
  have ending : ∀ text, solidPart (trimEnd text) = solidPart text := by
    intro text
    have mirrored : ∀ cs, solidPart (List.reverse cs) = (solidPart cs).reverse := by
      intro cs
      exact List.filter_reverse
    rw [trimEnd, mirrored, solid_part_drop, mirrored, List.reverse_reverse]
  rw [trim, ending, trimStart, solid_part_drop]

theorem solid_part_solid (cs : List Char) (solid : ∀ c ∈ cs, isBlank c = false) :
    solidPart cs = cs := by
  rw [solidPart, List.filter_eq_self]
  intro c member
  rw [solid c member]
  rfl

theorem trim_of_solid_part_nil (cs : List Char) (none : solidPart cs = []) : trim cs = [] := by
  have blank : ∀ c ∈ cs, isBlank c = true := by
    simpa [solidPart, List.filter_eq_nil_iff] using none
  have dropped : cs.dropWhile isBlank = [] := List.dropWhile_eq_nil_iff.mpr blank
  rw [trim, trimStart, dropped]
  rfl

end Text

namespace TimeUnit

theorem of_chars_iff (cs : List Char) (size : Nat) :
    ofChars cs = .ok size ↔
      Text.trim cs ≠ [] ∧ ∃ count unit,
        magnitude? ((Text.trim cs).takeWhile Char.isDigit) = some count ∧
        units.lookup (String.ofList (Text.lower (Text.trim ((Text.trim cs).dropWhile Char.isDigit)))) =
          some unit ∧
        size = count * unit ∧ 0 < size ∧ size < wordLimit := by
  simp only [ofChars, List.isEmpty_iff]
  by_cases empty : Text.trim cs = []
  · simp [empty]
  · rw [if_neg empty]
    cases magnitude? ((Text.trim cs).takeWhile Char.isDigit) with
    | none => simp
    | some count =>
        dsimp only
        cases units.lookup (String.ofList
            (Text.lower (Text.trim ((Text.trim cs).dropWhile Char.isDigit)))) with
        | none => simp
        | some unit =>
            by_cases fits : 0 < count * unit ∧ count * unit < wordLimit
            · simp only [if_pos fits, Except.ok.injEq, Option.some.injEq]
              constructor
              · rintro rfl
                exact ⟨empty, count, unit, rfl, rfl, rfl, fits⟩
              · rintro ⟨_, _, _, rfl, rfl, rfl, _⟩
                rfl
            · simp only [if_neg fits, reduceCtorEq, Option.some.injEq, false_iff]
              rintro ⟨_, _, _, rfl, rfl, rfl, inside⟩
              exact fits inside

def letters : List Char :=
  ['f', 's', 'p', 'n', 'u', 'm']

theorem unit_letters (name : String) (size : Nat) (known : units.lookup name = some size) :
    ∀ c ∈ name.toList, c ∈ letters := by
  have all : ∀ entry ∈ units, entry.1.toList.all letters.contains = true := by decide
  obtain ⟨before, after, split, _⟩ := List.lookup_eq_some_iff.mp known
  have member : (name, size) ∈ units := by simp [split]
  intro c inside
  exact List.contains_iff_mem.mp (List.all_eq_true.mp (all (name, size) member) c inside)

/-- A letter of a unit in either case is neither white space nor a digit. -/
theorem letter_plain (c : Char) (letter : c.toLower ∈ letters) :
    Text.isBlank c = false ∧ c.isDigit = false ∧ c ≠ '$' := by
  -- Capitals are known by their range, the others are the letters themselves.
  by_cases upper : c.isUpper
  · have range := Text.upper_range c upper
    refine ⟨Text.ascii_solid c (by omega) (by omega), ?_, ?_⟩
    · apply Bool.eq_false_iff.mpr
      intro digit
      have small := (Text.digit_range c digit).2
      omega
    · rintro rfl
      exact absurd range (by decide)
  · rw [Text.to_lower_of_not_upper c (Bool.eq_false_iff.mpr upper)] at letter
    simp only [letters, List.mem_cons, List.not_mem_nil, or_false] at letter
    rcases letter with rfl | rfl | rfl | rfl | rfl | rfl <;> decide

theorem name_plain (name : List Char) (size : Nat)
    (known : units.lookup (String.ofList (Text.lower name)) = some size) :
    ∀ c ∈ name, Text.isBlank c = false ∧ c.isDigit = false ∧ c ≠ '$' := by
  intro c member
  apply letter_plain
  apply unit_letters _ size known
  rw [String.toList_ofList]
  exact List.mem_map.mpr ⟨c, member, rfl⟩

/-- Leaving out white space keeps the digits and the name apart, because no name of a
unit starts with a digit. -/
theorem solid_text (cs : List Char) (size : Nat)
    (known : units.lookup (String.ofList
      (Text.lower (Text.trim ((Text.trim cs).dropWhile Char.isDigit)))) = some size) :
    Text.solidPart cs = (Text.trim cs).takeWhile Char.isDigit ++
      Text.trim ((Text.trim cs).dropWhile Char.isDigit) := by
  have digits : ∀ c ∈ (Text.trim cs).takeWhile Char.isDigit, Text.isBlank c = false := by
    intro c member
    exact Text.digit_solid c (List.mem_takeWhile_imp member)
  have name := name_plain _ size known
  calc
    Text.solidPart cs = Text.solidPart (Text.trim cs) := (Text.solid_part_trim cs).symm
    _ = Text.solidPart ((Text.trim cs).takeWhile Char.isDigit) ++
        Text.solidPart ((Text.trim cs).dropWhile Char.isDigit) := by
      rw [Text.solidPart, Text.solidPart, Text.solidPart, ← List.filter_append,
        List.takeWhile_append_dropWhile]
    _ = (Text.trim cs).takeWhile Char.isDigit ++
        Text.solidPart (Text.trim ((Text.trim cs).dropWhile Char.isDigit)) := by
      rw [Text.solid_part_solid _ digits, Text.solid_part_trim]
    _ = _ := by
      rw [Text.solid_part_solid _ fun c member => (name c member).1]

/-- A length of time is read from its words as from the whole text. -/
theorem of_chars_words (cs : List Char) (size : Nat) (read : ofChars cs = .ok size) :
    ofChars (Text.words cs).flatten = .ok size ∧ (Text.words cs).flatten ≠ [] ∧
      '$' ∉ (Text.words cs).flatten := by
  obtain ⟨nonempty, count, unit, digits, known, counted⟩ := (of_chars_iff cs size).mp read
  have flat := solid_text cs unit known
  have name := name_plain _ unit known
  have front : ∀ c ∈ (Text.trim cs).takeWhile Char.isDigit, c.isDigit = true :=
    fun c member => List.mem_takeWhile_imp member
  rw [Text.words_flatten]
  -- The rest is about the digits and the name alone, wherever they came from.
  generalize (Text.trim cs).takeWhile Char.isDigit = number at *
  generalize Text.trim ((Text.trim cs).dropWhile Char.isDigit) = unitName at *
  have present : Text.solidPart cs ≠ [] := fun none => nonempty (Text.trim_of_solid_part_nil cs none)
  rw [flat] at present ⊢
  have solid : ∀ c ∈ number ++ unitName, Text.isBlank c = false := by
    intro c member
    rcases List.mem_append.mp member with left | right
    · exact Text.digit_solid c (front c left)
    · exact (name c right).1
  have stop : unitName.takeWhile Char.isDigit = [] ∧ unitName.dropWhile Char.isDigit = unitName := by
    cases unitName with
    | nil => exact ⟨rfl, rfl⟩
    | cons c rest =>
        have letter := (name c List.mem_cons_self).2.1
        simp [letter]
  have digitsRead : (number ++ unitName).takeWhile Char.isDigit = number := by
    rw [List.takeWhile_append_of_pos front, stop.1, List.append_nil]
  have nameRead : (number ++ unitName).dropWhile Char.isDigit = unitName := by
    rw [List.dropWhile_append_of_pos front, stop.2]
  refine ⟨(of_chars_iff _ size).mpr ?_, present, ?_⟩
  · rw [Text.trim_solid _ solid, digitsRead, nameRead,
      Text.trim_solid unitName fun c member => (name c member).1]
    exact ⟨present, count, unit, digits, known, counted⟩
  · intro dollar
    rcases List.mem_append.mp dollar with left | right
    · exact absurd (front '$' left) (by decide)
    · exact (name '$' right).2.2 rfl

end TimeUnit

end CoreBench
