import CoreBench.Bench.Statement
import CoreBench.Proofs.Cutting

/-!
Which statements a text has when lines are added to it. White space at the end of a line
is no part of a statement, so how a line ends does not matter.
-/

namespace CoreBench.Statement

theorem of_line_nil : ofLine [] = [] := rfl

theorem of_line_append_blanks (line gap : List Char) (blank : ∀ c ∈ gap, Text.isBlank c = true) :
    ofLine (line ++ gap) = ofLine line := by
  rw [ofLine, Text.trim_append_blanks gap line blank, ofLine]

theorem return_blank : ∀ c ∈ ['\r'], Text.isBlank c = true := by
  intro c member
  rw [List.mem_singleton.mp member]
  decide

theorem of_line_drop_return (line : List Char) : ofLine (Text.dropReturn line) = ofLine line := by
  rw [Text.dropReturn]
  split
  next ends =>
    obtain ⟨front, rfl⟩ := List.getLast?_eq_some_iff.mp ends
    rw [List.dropLast_concat, of_line_append_blanks front ['\r'] return_blank]
  next => rfl

theorem of_lines_eq (number : Nat) (lines : List (List Char)) :
    ofLines number lines =
      Text.readLines (fun number line => (ofLine line).map (Prod.mk number)) number lines := by
  induction lines generalizing number with
  | nil => rfl
  | cons line lines ih => rw [ofLines, ih, Text.readLines]

theorem of_lines_append (number : Nat) (lines others : List (List Char)) :
    ofLines number (lines ++ others) =
      ofLines number lines ++ ofLines (number + lines.length) others := by
  rw [of_lines_eq, Text.read_lines_append, ← of_lines_eq, ← of_lines_eq]

theorem of_lines_single (number : Nat) (line : List Char) :
    ofLines number [line] = (ofLine line).map (Prod.mk number) := by
  rw [ofLines, ofLines, List.append_nil]

/-- The statements are those between the line feeds. -/
theorem of_text_eq (cs : List Char) : ofText cs = ofLines 1 (cs.splitOn '\n') := by
  rw [ofText, of_lines_eq, of_lines_eq]
  apply Text.read_lines_text
  · intro number line
    rw [of_line_drop_return]
  · intro number
    rw [of_line_nil, List.map_nil]

theorem of_text_append_line (front rest : List Char) :
    ofText (front ++ '\n' :: rest) =
      ofText front ++ ofLines (1 + (front.splitOn '\n').length) (rest.splitOn '\n') := by
  rw [of_text_eq, List.splitOn_append_cons_self, of_lines_append, of_text_eq]

theorem of_text_line (line : List Char) (single : '\n' ∉ line) :
    ofText line = (ofLine line).map (Prod.mk 1) := by
  rw [of_text_eq, List.splitOn_eq_singleton single, of_lines_single]

/-- White space behind a text adds no statement, as long as it starts no line. -/
theorem of_text_append_blanks (front gap : List Char) (blank : ∀ c ∈ gap, Text.isBlank c = true)
    (single : '\n' ∉ gap) : ofText (front ++ gap) = ofText front := by
  cases cut : Text.cutLast '\n' front with
  | none =>
      have line := (Text.cut_last_none_iff '\n' front).mp cut
      rw [of_text_line front line, of_text_line _ (by simp [line, single]),
        of_line_append_blanks front gap blank]
  | some parts =>
      obtain ⟨rfl, line⟩ := (Text.cut_last_iff '\n' front parts.1 parts.2).mp cut
      rw [List.append_assoc, List.cons_append, of_text_append_line, of_text_append_line,
        List.splitOn_eq_singleton line,
        List.splitOn_eq_singleton (show '\n' ∉ parts.2 ++ gap by simp [line, single]),
        of_lines_single, of_lines_single, of_line_append_blanks _ gap blank]

/-- A line and the lines before it are as many as the line feeds before it and one. -/
theorem split_length (sep : Char) (cs : List Char) :
    (cs.splitOn sep).length = cs.count sep + 1 := by
  induction cs with
  | nil => rfl
  | cons c cs ih =>
      rw [List.splitOn_cons_eq_if_modifyHead, List.count_cons]
      split
      next => rw [List.length_cons, ih]
      next => rw [List.length_modifyHead, ih, Nat.add_zero]

/-- How lines may end. -/
def lineEnds : List (List Char) :=
  [[], ['\n'], ['\r', '\n']]

theorem of_lines_ended (number : Nat) (line after : List Char) (single : '\n' ∉ line)
    (ends : after ∈ lineEnds) :
    ofLines number ((line ++ after).splitOn '\n') = (ofLine line).map (Prod.mk number) := by
  simp only [lineEnds, List.mem_cons, List.not_mem_nil, or_false] at ends
  rcases ends with rfl | rfl | rfl
  · rw [List.append_nil, List.splitOn_eq_singleton single, of_lines_single]
  · rw [List.splitOn_append_cons_self, List.splitOn_eq_singleton single, List.singleton_append,
      ofLines, List.splitOn_nil, of_lines_single, of_line_nil, List.map_nil, List.append_nil]
  · have returned : '\n' ∉ line ++ ['\r'] := by simp [single]
    rw [List.append_cons, List.splitOn_append_cons_self, List.splitOn_eq_singleton returned,
      List.singleton_append, ofLines, List.splitOn_nil, of_lines_single, of_line_nil, List.map_nil,
      List.append_nil, of_line_append_blanks line ['\r'] return_blank]

/-- A line that is added behind a text adds its statements. -/
theorem of_text_add_line (text before line after : List Char) (starts : before ∈ lineEnds)
    (fresh : (text ++ before).getLast? = some '\n') (single : '\n' ∉ line)
    (ends : after ∈ lineEnds) :
    ofText (text ++ before ++ (line ++ after)) =
      ofText text ++ (ofLine line).map (Prod.mk ((text ++ before).count '\n' + 1)) := by
  obtain ⟨front, whole⟩ := List.getLast?_eq_some_iff.mp fresh
  have same : ofText front = ofText text := by
    simp only [lineEnds, List.mem_cons, List.not_mem_nil, or_false] at starts
    rcases starts with rfl | rfl | rfl
    · rw [List.append_nil] at whole
      rw [whole, of_text_append_line, List.splitOn_nil, of_lines_single, of_line_nil,
        List.map_nil, List.append_nil]
    · rw [List.append_cancel_right whole]
    · rw [List.append_cons] at whole
      rw [← List.append_cancel_right whole]
      exact of_text_append_blanks text ['\r'] return_blank (by decide)
  rw [whole, List.append_assoc, List.singleton_append, of_text_append_line, same,
    of_lines_ended _ line after single ends, split_length, List.count_append,
    List.count_singleton_self, Nat.add_comm 1]

end CoreBench.Statement
