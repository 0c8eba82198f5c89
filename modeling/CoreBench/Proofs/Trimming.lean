import CoreBench.Proofs.Cutting
import Mathlib.Data.List.Basic

/-!
Texts with white space around them. Trimming takes away the white space at the ends, so what is
left has none there, and a text that has none is left of every text that holds it in the middle
of white space.
-/

namespace CoreBench.Text

theorem trim_trim (cs : List Char) : trim (trim cs) = trim cs := by
  obtain ⟨front, back, before, after, whole⟩ := trim_between cs
  calc trim (trim cs)
      = trim (trim cs ++ back) := (trim_append_blanks back _ after).symm
    _ = trim (front ++ (trim cs ++ back)) := (trim_blanks_append front _ before).symm
    _ = trim cs := by rw [← whole]

theorem trim_nil_iff (cs : List Char) : trim cs = [] ↔ ∀ c ∈ cs, isBlank c = true := by
  constructor
  · intro none
    obtain ⟨front, back, before, after, whole⟩ := trim_between cs
    rw [none, List.nil_append] at whole
    rw [whole, List.forall_mem_append]
    exact ⟨before, after⟩
  · intro blank
    have same := trim_blanks_append cs [] blank
    rwa [List.append_nil] at same

theorem solid_not_mem (gap : List Char) (c : Char) (blank : ∀ c ∈ gap, isBlank c = true)
    (solid : isBlank c = false) : c ∉ gap := by
  intro member
  rw [blank c member] at solid
  cases solid

theorem solid_mem_trim (cs : List Char) (c : Char) (solid : isBlank c = false) :
    c ∈ trim cs ↔ c ∈ cs := by
  obtain ⟨front, back, before, after, whole⟩ := trim_between cs
  have same : c ∈ cs ↔ c ∈ front ++ (trim cs ++ back) := by rw [← whole]
  rw [same]
  simp [solid_not_mem front c before solid, solid_not_mem back c after solid]

theorem trim_subset (cs : List Char) : trim cs ⊆ cs := by
  obtain ⟨front, back, _, _, whole⟩ := trim_between cs
  intro c member
  rw [whole]
  exact List.mem_append_right front (List.mem_append_left back member)

/-- A text with white space around it. -/
def Padded (inner cs : List Char) : Prop :=
  ∃ front back : List Char, (∀ c ∈ front, isBlank c = true) ∧ (∀ c ∈ back, isBlank c = true) ∧
    cs = front ++ (inner ++ back)

theorem padded_self (cs : List Char) : Padded cs cs :=
  ⟨[], [], List.forall_mem_nil _, List.forall_mem_nil _, by simp⟩

theorem padded_trim (cs : List Char) : Padded (trim cs) cs :=
  trim_between cs

theorem Padded.trim_eq {inner cs : List Char} (padded : Padded inner cs) :
    trim cs = trim inner := by
  obtain ⟨front, back, before, after, rfl⟩ := padded
  rw [trim_blanks_append front _ before, trim_append_blanks back inner after]

theorem Padded.solid_mem_iff {inner cs : List Char} (padded : Padded inner cs) (c : Char)
    (solid : isBlank c = false) : c ∈ cs ↔ c ∈ inner := by
  rw [← solid_mem_trim cs c solid, padded.trim_eq, solid_mem_trim inner c solid]

/-- White space may be added at either end. -/
theorem Padded.between {inner cs : List Char} (padded : Padded inner cs) (front back : List Char)
    (before : ∀ c ∈ front, isBlank c = true) (after : ∀ c ∈ back, isBlank c = true) :
    Padded inner (front ++ (cs ++ back)) := by
  obtain ⟨left, right, blank, other, rfl⟩ := padded
  refine ⟨front ++ left, right ++ back, ?_, ?_, by simp⟩
  · exact List.forall_mem_append.mpr ⟨before, blank⟩
  · exact List.forall_mem_append.mpr ⟨other, after⟩

/-- Around a text that trimming leaves as it is, there is no white space. -/
theorem Padded.eq_of_trimmed {inner cs : List Char} (padded : Padded inner cs)
    (trimmed : trim cs = cs) : cs = inner := by
  obtain ⟨before, after, _, _, inside⟩ := trim_between inner
  have shorter := congrArg List.length inside
  rw [padded.trim_eq] at trimmed
  obtain ⟨front, back, _, _, rfl⟩ := padded
  have longer := congrArg List.length trimmed
  simp only [List.length_append] at longer shorter
  have first : front = [] := List.eq_nil_of_length_eq_zero (by omega)
  have last : back = [] := List.eq_nil_of_length_eq_zero (by omega)
  rw [first, last, List.append_nil, List.nil_append]

/-- A text that trimming leaves as it is does not start with white space. -/
theorem trimmed_front (front rest : List Char) (blank : ∀ c ∈ front, isBlank c = true)
    (trimmed : trim (front ++ rest) = front ++ rest) : front = [] := by
  have padded : Padded rest (front ++ rest) := ⟨front, [], blank, by simp, by simp⟩
  exact List.append_left_eq_self.mp (padded.eq_of_trimmed trimmed)

theorem trimmed_back (rest back : List Char) (blank : ∀ c ∈ back, isBlank c = true)
    (trimmed : trim (rest ++ back) = rest ++ back) : back = [] := by
  have padded : Padded rest (rest ++ back) := ⟨[], back, by simp, blank, by simp⟩
  exact List.append_right_eq_self.mp (padded.eq_of_trimmed trimmed)

/-- A text that is not empty and has no white space at its ends. -/
structure Neat (cs : List Char) : Prop where
  nonempty : cs ≠ []
  trimmed : trim cs = cs

theorem Neat.of_trim {cs : List Char} (present : trim cs ≠ []) : Neat (trim cs) :=
  ⟨present, trim_trim cs⟩

theorem Neat.of_solid {cs : List Char} (nonempty : cs ≠ []) (solid : ∀ c ∈ cs, isBlank c = false) :
    Neat cs :=
  ⟨nonempty, trim_solid cs solid⟩

theorem Neat.single {c : Char} (solid : isBlank c = false) : Neat [c] :=
  .of_solid (List.cons_ne_nil c []) (by simpa using solid)

theorem Neat.trim_padded {inner cs : List Char} (neat : Neat inner) (padded : Padded inner cs) :
    trim cs = inner := by
  rw [padded.trim_eq, neat.trimmed]

theorem Neat.head_solid {cs : List Char} (neat : Neat cs) :
    ∀ c ∈ cs.head?, isBlank c = false := by
  intro c first
  obtain ⟨rest, rfl⟩ := List.head?_eq_some_iff.mp first
  rw [Bool.eq_false_iff]
  intro blank
  have none := trimmed_front [c] rest (by simpa using blank) neat.trimmed
  cases none

theorem Neat.last_solid {cs : List Char} (neat : Neat cs) :
    ∀ c ∈ cs.getLast?, isBlank c = false := by
  intro c last
  obtain ⟨rest, rfl⟩ := List.getLast?_eq_some_iff.mp last
  rw [Bool.eq_false_iff]
  intro blank
  have none := trimmed_back rest [c] (by simpa using blank) neat.trimmed
  cases none

/-- What stands between the ends of a text does not matter. -/
theorem Neat.between {one other : List Char} (first : Neat one) (last : Neat other)
    (middle : List Char) : Neat (one ++ (middle ++ other)) := by
  refine ⟨by simp [first.nonempty], trim_eq_self _ ?_ ?_⟩
  · rw [List.head?_append_of_ne_nil _ first.nonempty]
    exact first.head_solid
  · rw [← List.append_assoc, List.getLast?_append_of_ne_nil _ last.nonempty]
    exact last.last_solid

/-- Only the white space outside of the two ends is taken away. -/
theorem Neat.trim_around {one other : List Char} (first : Neat one) (last : Neat other)
    (front middle back : List Char) (before : ∀ c ∈ front, isBlank c = true)
    (after : ∀ c ∈ back, isBlank c = true) :
    trim (front ++ (one ++ (middle ++ (other ++ back)))) = one ++ (middle ++ other) :=
  (first.between last middle).trim_padded ⟨front, back, before, after, by simp⟩

/-- What stands between separators, without white space around it and without blank pieces. -/
def pieces (sep : Char) (cs : List Char) : List (List Char) :=
  ((cs.splitOn sep).map trim).filter fun piece => !piece.isEmpty

theorem pieces_append (sep : Char) (cs rest : List Char) :
    pieces sep (cs ++ sep :: rest) = pieces sep cs ++ pieces sep rest := by
  rw [pieces, List.splitOn_append_cons_self, List.map_append, List.filter_append, pieces, pieces]

theorem pieces_unsplit (sep : Char) (cs : List Char) (unsplit : sep ∉ cs) :
    pieces sep cs = if trim cs = [] then [] else [trim cs] := by
  rw [pieces, List.splitOn_eq_singleton unsplit, List.map_singleton]
  by_cases empty : trim cs = []
  · simp [empty]
  · simp [empty]

/-- White space in front of a text belongs to its first piece. -/
theorem pieces_blanks_append (sep : Char) (solid : isBlank sep = false) (gap cs : List Char)
    (blank : ∀ c ∈ gap, isBlank c = true) : pieces sep (gap ++ cs) = pieces sep cs := by
  have outside := solid_not_mem gap sep blank solid
  cases cut : cut [sep] cs with
  | none =>
      have unsplit := (cut_single_none_iff sep cs).mp cut
      rw [pieces_unsplit sep (gap ++ cs) (by simp [outside, unsplit]),
        pieces_unsplit sep cs unsplit, trim_blanks_append gap cs blank]
  | some parts =>
      obtain ⟨rfl, unsplit⟩ := (cut_single_iff sep cs parts.1 parts.2).mp cut
      rw [← List.append_assoc, pieces_append, pieces_append,
        pieces_unsplit sep (gap ++ parts.1) (by simp [outside, unsplit]),
        pieces_unsplit sep parts.1 unsplit, trim_blanks_append gap parts.1 blank]

/-- White space behind a text belongs to its last piece. -/
theorem pieces_append_blanks (sep : Char) (solid : isBlank sep = false) (cs gap : List Char)
    (blank : ∀ c ∈ gap, isBlank c = true) : pieces sep (cs ++ gap) = pieces sep cs := by
  have outside := solid_not_mem gap sep blank solid
  cases cut : cutLast sep cs with
  | none =>
      have unsplit := (cut_last_none_iff sep cs).mp cut
      rw [pieces_unsplit sep (cs ++ gap) (by simp [outside, unsplit]),
        pieces_unsplit sep cs unsplit, trim_append_blanks gap cs blank]
  | some parts =>
      obtain ⟨rfl, unsplit⟩ := (cut_last_iff sep cs parts.1 parts.2).mp cut
      rw [List.append_assoc, List.cons_append, pieces_append, pieces_append,
        pieces_unsplit sep (parts.2 ++ gap) (by simp [outside, unsplit]),
        pieces_unsplit sep parts.2 unsplit, trim_append_blanks gap parts.2 blank]

theorem pieces_trim (sep : Char) (solid : isBlank sep = false) (cs : List Char) :
    pieces sep (trim cs) = pieces sep cs := by
  obtain ⟨front, back, before, after, whole⟩ := trim_between cs
  calc pieces sep (trim cs)
      = pieces sep (trim cs ++ back) := (pieces_append_blanks sep solid _ back after).symm
    _ = pieces sep (front ++ (trim cs ++ back)) :=
        (pieces_blanks_append sep solid front _ before).symm
    _ = pieces sep cs := by rw [← whole]

end CoreBench.Text
