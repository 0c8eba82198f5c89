import CoreBench.Proofs.Words

/-!
Where the tokens of a text stand. The number of a token is that of the line feeds in front of
it and one. Lines behind a text add their tokens to those of the text.
-/

namespace CoreBench

/-- Each word stands behind the words in front of it. -/
theorem Text.word_at {text word : List Char} {place : Nat}
    (found : (words text)[place]? = some word) :
    ∃ before after, text = before ++ word ++ after ∧ words before = (words text).take place := by
  obtain ⟨all, layout, solid⟩ := exists_layout text
  rw [words_layout all text layout solid] at found ⊢
  induction layout generalizing place with
  | blank => cases found
  | @word gap first text rest blank parted others ih =>
      cases place with
      | zero =>
          cases found
          refine ⟨gap, text, rfl, ?_⟩
          have none := words_blanks gap [] blank
          rwa [List.append_nil, words_nil] at none
      | succ place =>
          obtain ⟨before, after, whole, front⟩ :=
            ih found fun other member => solid other (List.mem_cons_of_mem first member)
          have apart : ∀ c ∈ before.head?, isBlank c := by
            intro c head
            apply parted
            rw [whole, List.append_assoc, List.head?_append, head, Option.some_or]
            rfl
          refine ⟨gap ++ first ++ before, after, by simp only [whole, List.append_assoc], ?_⟩
          rw [List.append_assoc, words_blanks gap _ blank,
            words_word first before (solid first List.mem_cons_self) apart, front,
            List.take_succ_cons]

namespace Waveform.Token

theorem of_lines_eq (number : Nat) (lines : List (List Char)) :
    ofLines number lines =
      Text.readLines (fun number line => (Text.words line).map (Token.mk number)) number lines := by
  induction lines generalizing number with
  | nil => rfl
  | cons line lines ih => rw [ofLines, ih, Text.readLines]

theorem of_lines_append (number : Nat) (lines others : List (List Char)) :
    ofLines number (lines ++ others) =
      ofLines number lines ++ ofLines (number + lines.length) others := by
  rw [of_lines_eq, Text.read_lines_append, ← of_lines_eq, ← of_lines_eq]

/-- The tokens are those between the line feeds. -/
theorem of_text_eq (text : List Char) : ofText text = ofLines 1 (text.splitOn '\n') := by
  rw [ofText, of_lines_eq, of_lines_eq]
  apply Text.read_lines_text
  · intro number line
    rw [Text.words_drop_return]
  · intro number
    rw [Text.words_nil, List.map_nil]

/-- Reading goes on with a new line. -/
theorem of_text_append_line (front back : List Char) :
    ofText (front ++ '\n' :: back) =
      ofText front ++ ofLines (1 + (front.splitOn '\n').length) (back.splitOn '\n') := by
  rw [of_text_eq, List.splitOn_append_cons_self, of_lines_append, of_text_eq]

/-- The token has its place among the words of the text, on the line of its number. -/
def StandsIn (token : Token) (text : List Char) (place : Nat) : Prop :=
  ∃ before after, text = before ++ token.text ++ after ∧
    Text.words before = (Text.words text).take place ∧
    token.line = before.count '\n' + 1

theorem stands_in_line (number place : Nat) (line : List Char) (token : Token)
    (single : '\n' ∉ line)
    (found : ((Text.words line).map (Token.mk number))[place]? = some token) :
    ∃ before after, line = before ++ token.text ++ after ∧
      Text.words before = (Text.words line).take place ∧
      token.line = number + before.count '\n' := by
  rw [List.getElem?_map, Option.map_eq_some_iff] at found
  obtain ⟨word, here, rfl⟩ := found
  obtain ⟨before, after, rfl, front⟩ := Text.word_at here
  refine ⟨before, after, rfl, front, ?_⟩
  have none : before.count '\n' = 0 := by
    apply List.count_eq_zero.mpr
    intro member
    exact single (List.mem_append_left _ (List.mem_append_left _ member))
  rw [none, Nat.add_zero]

theorem stands_from (number place : Nat) (text : List Char) (token : Token)
    (found : (ofLines number (text.splitOn '\n'))[place]? = some token) :
    ∃ before after, text = before ++ token.text ++ after ∧
      Text.words before = (Text.words text).take place ∧
      token.line = number + before.count '\n' := by
  by_cases several : '\n' ∈ text
  · obtain ⟨line, rest, rfl, single⟩ := List.eq_append_cons_of_mem several
    have words := Text.words_append_blank line rest '\n' (by decide)
    rw [List.splitOn_append_cons_self, List.splitOn_eq_singleton single, List.singleton_append,
      ofLines] at found
    by_cases here : place < (Text.words line).length
    · rw [List.getElem?_append_left (by rwa [List.length_map])] at found
      obtain ⟨before, after, whole, front, count⟩ :=
        stands_in_line number place line token single found
      refine ⟨before, after ++ '\n' :: rest, by rw [whole]; simp only [List.append_assoc], ?_, count⟩
      rw [words, List.take_append_of_le_length (Nat.le_of_lt here), front]
    · rw [List.getElem?_append_right (by rw [List.length_map]; omega), List.length_map] at found
      obtain ⟨before, after, whole, front, count⟩ := stands_from (number + 1) _ rest token found
      refine ⟨line ++ '\n' :: before, after, ?_, ?_, ?_⟩
      · rw [whole]
        simp only [List.append_assoc, List.cons_append]
      · rw [words, Text.words_append_blank line before '\n' (by decide), front, List.take_append,
          List.take_of_length_le (Nat.le_of_not_lt here)]
      · rw [count, List.count_append, List.count_eq_zero.mpr single, List.count_cons_self]
        omega
  · rw [List.splitOn_eq_singleton several, ofLines, ofLines, List.append_nil] at found
    exact stands_in_line number place text token several found
termination_by text.length
decreasing_by
  subst text
  simp only [List.length_append, List.length_cons]
  omega

/-- Every token of a text stands in it, at the place that it has among the tokens. -/
theorem stands_in (text : List Char) (place : Nat) (token : Token)
    (found : (ofText text)[place]? = some token) : token.StandsIn text place := by
  rw [of_text_eq] at found
  obtain ⟨before, after, whole, front, line⟩ := stands_from 1 place text token found
  exact ⟨before, after, whole, front, by rw [line, Nat.add_comm]⟩

end Waveform.Token

end CoreBench
