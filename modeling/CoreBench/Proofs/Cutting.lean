import CoreBench.Text.Split
import Mathlib.Data.List.TakeWhile

/-!
Where a text is cut. A cut at one character finds its first or its last occurrence, a text that
was put together from lines has these lines, and trimming takes away the white space at the ends
and nothing else.
-/

namespace CoreBench.Text

/-- A separator is found where its first character does not occur before. -/
theorem cut_append (first : Char) (others before after : List Char) (absent : first ∉ before) :
    cut (first :: others) (before ++ first :: (others ++ after)) = some (before, after) := by
  induction before with
  | nil =>
      have here : (first :: others).isPrefixOf (first :: (others ++ after)) = true :=
        List.isPrefixOf_iff_prefix.mpr ⟨after, rfl⟩
      rw [List.nil_append, cut, if_pos here]
      simp
  | cons c before ih =>
      obtain ⟨apart, absent⟩ := List.ne_and_not_mem_of_not_mem_cons absent
      have there : (first :: others).isPrefixOf (c :: (before ++ first :: (others ++ after))) =
          false := by
        rw [List.isPrefixOf_cons_cons, beq_eq_false_iff_ne.mpr apart, Bool.false_and]
      rw [List.cons_append, cut, if_neg (by rw [there]; exact Bool.false_ne_true), ih absent,
        Option.map_some]

theorem cut_single_before (sep : Char) (cs before after : List Char)
    (found : cut [sep] cs = some (before, after)) : sep ∉ before := by
  induction cs generalizing before with
  | nil => cases found
  | cons c cs ih =>
      by_cases here : [sep].isPrefixOf (c :: cs)
      · rw [cut, if_pos here] at found
        cases found
        exact List.not_mem_nil
      · rw [cut, if_neg here, Option.map_eq_some_iff] at found
        obtain ⟨⟨front, rest⟩, later, pair⟩ := found
        cases pair
        have apart : sep ≠ c := by
          rintro rfl
          exact here (List.isPrefixOf_iff_prefix.mpr ⟨cs, rfl⟩)
        exact List.not_mem_cons_of_ne_of_not_mem apart (ih front later)

theorem cut_single_iff (sep : Char) (cs before after : List Char) :
    cut [sep] cs = some (before, after) ↔ cs = before ++ sep :: after ∧ sep ∉ before := by
  constructor
  · intro found
    have whole := cut_eq_append [sep] cs before after found
    rw [List.append_assoc, List.singleton_append] at whole
    exact ⟨whole, cut_single_before sep cs before after found⟩
  · rintro ⟨rfl, absent⟩
    exact cut_append sep [] before after absent

theorem cut_single_none_iff (sep : Char) (cs : List Char) : cut [sep] cs = none ↔ sep ∉ cs := by
  constructor
  · intro none member
    obtain ⟨before, after, rfl, absent⟩ := List.eq_append_cons_of_mem member
    rw [(cut_single_iff sep _ before after).mpr ⟨rfl, absent⟩] at none
    cases none
  · intro absent
    cases found : cut [sep] cs with
    | none => rfl
    | some parts =>
        obtain ⟨rfl, _⟩ := (cut_single_iff sep cs parts.1 parts.2).mp found
        simp at absent

/-- What follows any occurrence follows the first one. -/
theorem suffix_of_first {α : Type} (sep : α) (before after head tail : List α)
    (same : before ++ sep :: after = head ++ sep :: tail) (first : sep ∉ head) :
    after <:+ tail := by
  rcases List.append_eq_append_iff.mp same with ⟨middle, rfl, rest⟩ | ⟨middle, _, rest⟩
  · cases middle with
    | nil => exact ⟨[], (List.cons.inj rest).2⟩
    | cons c middle =>
        obtain ⟨rfl, _⟩ := List.cons.inj rest
        simp at first
  · cases middle with
    | nil => exact ⟨[], (List.cons.inj rest).2.symm⟩
    | cons c middle =>
        obtain ⟨_, rfl⟩ := List.cons.inj rest
        exact ⟨middle ++ [sep], by simp⟩

/-- What stands in front of the first occurrence, and what behind it, is determined. -/
theorem parts_of_first {α : Type} (sep : α) (before after head tail : List α)
    (same : before ++ sep :: after = head ++ sep :: tail) (first : sep ∉ before)
    (first' : sep ∉ head) : before = head ∧ after = tail := by
  have shorter := suffix_of_first sep before after head tail same first'
  have longer := suffix_of_first sep head tail before after same.symm first
  obtain rfl := shorter.eq_of_length (Nat.le_antisymm shorter.length_le longer.length_le)
  exact ⟨List.append_cancel_right same, rfl⟩

theorem cut_last_iff (sep : Char) (cs before after : List Char) :
    cutLast sep cs = some (before, after) ↔ cs = before ++ sep :: after ∧ sep ∉ after := by
  rw [cutLast, Option.map_eq_some_iff]
  constructor
  · rintro ⟨⟨front, rest⟩, found, pair⟩
    cases pair
    obtain ⟨whole, absent⟩ := (cut_single_iff sep _ front rest).mp found
    refine ⟨?_, by simpa using absent⟩
    rw [List.reverse_eq_iff.mp whole]
    simp
  · rintro ⟨rfl, absent⟩
    refine ⟨(after.reverse, before.reverse), ?_, by simp⟩
    exact (cut_single_iff sep _ _ _).mpr ⟨by simp, by simpa using absent⟩

theorem cut_last_none_iff (sep : Char) (cs : List Char) : cutLast sep cs = none ↔ sep ∉ cs := by
  rw [cutLast, Option.map_eq_none_iff, cut_single_none_iff, List.mem_reverse]

/-- A piece between separators is a part of the text without any of them. -/
theorem split_piece (sep : Char) (cs : List Char) :
    ∀ piece ∈ cs.splitOn sep, sep ∉ piece ∧ piece ⊆ cs := by
  induction cs with
  | nil => simp
  | cons c cs ih =>
      obtain ⟨first, rest, split⟩ := List.exists_cons_of_ne_nil (List.splitOn_ne_nil sep cs)
      rw [split, List.forall_mem_cons] at ih
      rw [List.splitOn_cons_eq_if_modifyHead, split]
      by_cases here : c = sep
      · simp only [here, beq_self_eq_true, ↓reduceIte, List.forall_mem_cons]
        grind
      · simp only [beq_iff_eq, here, ↓reduceIte, List.modifyHead_cons, List.forall_mem_cons]
        grind

/-- The lines are what line feeds divide a text into, apart from an empty rest. -/
theorem lines_parts (cs : List Char) :
    ∃ front final, cs.splitOn '\n' = front ++ [final] ∧
      lines cs = front.map dropReturn ++ [final].filter fun line => !line.isEmpty := by
  obtain ⟨front, final, whole⟩ : ∃ front final, cs.splitOn '\n' = front ++ [final] :=
    ⟨_, _, (List.dropLast_concat_getLast (List.splitOn_ne_nil '\n' cs)).symm⟩
  refine ⟨front, final, whole, ?_⟩
  rw [lines, whole, List.dropLast_concat, List.getLast?_concat, Option.toList_some]

section ReadLines

variable {α : Type} (read : Nat → List Char → List α)

/-- What is read from lines, the first of which has the given number. -/
def readLines : Nat → List (List Char) → List α
  | _, [] => []
  | number, line :: rest => read number line ++ readLines (number + 1) rest

theorem read_lines_append (number : Nat) (lines others : List (List Char)) :
    readLines read number (lines ++ others) =
      readLines read number lines ++ readLines read (number + lines.length) others := by
  induction lines generalizing number with
  | nil => rfl
  | cons line lines ih =>
      rw [List.cons_append, readLines, ih, readLines, List.append_assoc, List.length_cons,
        Nat.add_right_comm, Nat.add_assoc]

theorem read_lines_map_return (number : Nat) (lines : List (List Char))
    (same : ∀ number line, read number (dropReturn line) = read number line) :
    readLines read number (lines.map dropReturn) = readLines read number lines := by
  induction lines generalizing number with
  | nil => rfl
  | cons line lines ih => rw [List.map_cons, readLines, same, ih, readLines]

/-- Where nothing is read from an empty line, and a carriage return at the end of a line does not
count, the lines are what stands between the line feeds. -/
theorem read_lines_text (number : Nat) (cs : List Char)
    (same : ∀ number line, read number (dropReturn line) = read number line)
    (empty : ∀ number, read number [] = []) :
    readLines read number (lines cs) = readLines read number (cs.splitOn '\n') := by
  obtain ⟨front, final, whole, parts⟩ := lines_parts cs
  rw [parts, whole, read_lines_append, read_lines_map_return read number front same,
    List.length_map, read_lines_append]
  cases final with
  | nil => rw [readLines, empty]; rfl
  | cons c final => rfl

end ReadLines

/-- Lines with a line feed behind each of them. -/
def ended (lines : List (List Char)) : List Char :=
  lines.flatMap fun line => line ++ ['\n']

theorem split_ended (lines : List (List Char)) (single : ∀ line ∈ lines, '\n' ∉ line) :
    (ended lines).splitOn '\n' = lines ++ [[]] := by
  induction lines with
  | nil => rfl
  | cons line rest ih =>
      obtain ⟨first, later⟩ := List.forall_mem_cons.mp single
      have whole : ended (line :: rest) = line ++ '\n' :: ended rest := by simp [ended]
      rw [whole, List.splitOn_append_cons_self, List.splitOn_eq_singleton first, ih later,
        List.singleton_append, List.cons_append]

/-- A carriage return would be taken for a part of the line end. -/
theorem lines_ended (lines : List (List Char)) (single : ∀ line ∈ lines, '\n' ∉ line)
    (returned : ∀ line ∈ lines, line.getLast? ≠ some '\r') : Text.lines (ended lines) = lines := by
  have kept : lines.map dropReturn = lines :=
    (List.map_congr_left fun line member => if_neg (returned line member)).trans (List.map_id lines)
  simp [Text.lines, split_ended lines single, kept]

/-- A run of characters that pass a test ends where one does not. -/
theorem take_run (test : Char → Bool) (run tail : List Char) (passes : ∀ c ∈ run, test c = true)
    (ends : ∀ c ∈ tail.head?, test c = false) : (run ++ tail).takeWhile test = run := by
  rw [List.takeWhile_append_of_pos passes]
  cases tail with
  | nil => simp
  | cons c tail => simp [ends c rfl]

theorem drop_run (test : Char → Bool) (run tail : List Char) (passes : ∀ c ∈ run, test c = true)
    (ends : ∀ c ∈ tail.head?, test c = false) : (run ++ tail).dropWhile test = tail := by
  rw [List.dropWhile_append_of_pos passes]
  cases tail with
  | nil => rfl
  | cons c tail => simp [ends c rfl]

theorem exists_run (test : Char → Bool) (cs : List Char) : ∃ run tail : List Char,
    cs = run ++ tail ∧ (∀ c ∈ run, test c = true) ∧ ∀ c ∈ tail.head?, test c = false := by
  refine ⟨cs.takeWhile test, cs.dropWhile test, List.takeWhile_append_dropWhile.symm,
    fun c member => List.mem_takeWhile_imp member, ?_⟩
  intro c first
  have ends := List.head?_dropWhile_not test cs
  rw [Option.mem_def.mp first] at ends
  exact ends

theorem trim_start_blanks (gap cs : List Char) (blank : ∀ c ∈ gap, isBlank c) :
    trimStart (gap ++ cs) = trimStart cs :=
  List.dropWhile_append_of_pos blank

theorem trim_blanks_append (gap cs : List Char) (blank : ∀ c ∈ gap, isBlank c) :
    trim (gap ++ cs) = trim cs := by
  rw [trim, trim_start_blanks gap cs blank, trim]

theorem trim_end_blanks (gap cs : List Char) (blank : ∀ c ∈ gap, isBlank c) :
    trimEnd (cs ++ gap) = trimEnd cs := by
  rw [trimEnd, List.reverse_append,
    List.dropWhile_append_of_pos fun c member => blank c (List.mem_reverse.mp member), trimEnd]

theorem trim_append_blanks (gap cs : List Char) (blank : ∀ c ∈ gap, isBlank c) :
    trim (cs ++ gap) = trim cs := by
  by_cases empty : trimStart cs = []
  · have all : ∀ c ∈ cs, isBlank c := List.dropWhile_eq_nil_iff.mp empty
    have whole : trimStart (cs ++ gap) = [] := by
      apply List.dropWhile_eq_nil_iff.mpr
      intro c member
      rcases List.mem_append.mp member with left | right
      · exact all c left
      · exact blank c right
    rw [trim, trim, whole, empty]
  · have kept : trimStart (cs ++ gap) = trimStart cs ++ gap := by
      rw [trimStart, trimStart, List.dropWhile_append, if_neg (by simpa [trimStart] using empty)]
    rw [trim, kept, trim_end_blanks gap _ blank, trim]

/-- A text with no white space at its ends stays as it is. -/
theorem trim_eq_self (cs : List Char) (first : ∀ c ∈ cs.head?, isBlank c = false)
    (last : ∀ c ∈ cs.getLast?, isBlank c = false) : trim cs = cs := by
  have front : ∀ text : List Char, (∀ c ∈ text.head?, isBlank c = false) →
      text.dropWhile isBlank = text := by
    intro text solid
    cases text with
    | nil => rfl
    | cons c rest => exact List.dropWhile_cons_of_neg (by simp [solid c rfl])
  rw [trim, trimStart, front cs first, trimEnd, front _ (by simpa using last), List.reverse_reverse]

/-- Trimming leaves a text without the white space around it. -/
theorem trim_between (cs : List Char) : ∃ front back : List Char,
    (∀ c ∈ front, isBlank c = true) ∧ (∀ c ∈ back, isBlank c = true) ∧
      cs = front ++ (trim cs ++ back) := by
  refine ⟨cs.takeWhile isBlank, ((trimStart cs).reverse.takeWhile isBlank).reverse,
    fun c member => List.mem_takeWhile_imp member,
    fun c member => List.mem_takeWhile_imp (List.mem_reverse.mp member), ?_⟩
  rw [trim, trimEnd, ← List.reverse_append, List.takeWhile_append_dropWhile, List.reverse_reverse,
    trimStart, List.takeWhile_append_dropWhile]

theorem trim_solid (cs : List Char) (solid : ∀ c ∈ cs, isBlank c = false) : trim cs = cs :=
  trim_eq_self cs (fun c first => solid c (List.mem_of_head? first))
    (fun c last => solid c (List.mem_of_getLast? last))

end CoreBench.Text
