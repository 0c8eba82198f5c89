import CoreBench.Proofs.Cutting
import CoreBench.Waveform.Token

/-!
Which words a text has. White space stands between them, so it does not matter how much
of it there is, nor where the lines end.
-/

namespace CoreBench.Text

/-- Words in order with white space between them, and perhaps around them. -/
inductive Layout : List (List Char) → List Char → Prop where
  | blank {gap : List Char} (blank : ∀ c ∈ gap, isBlank c) : Layout [] gap
  | word {gap word text : List Char} {words : List (List Char)} (blank : ∀ c ∈ gap, isBlank c)
      (parted : ∀ c ∈ text.head?, isBlank c) (rest : Layout words text) :
      Layout (word :: words) (gap ++ word ++ text)

/-- A word that white space can set off from others. -/
def Solid (word : List Char) : Prop :=
  word ≠ [] ∧ ∀ c ∈ word, isBlank c = false

instance (word : List Char) : Decidable (Solid word) :=
  @instDecidableAnd _ _ _ (List.decidableBAll (fun c => isBlank c = false) word)

theorem words_nil : words [] = [] := by
  simp [words]

theorem words_append_blank (before after : List Char) (c : Char) (blank : isBlank c) :
    words (before ++ c :: after) = words before ++ words after := by
  rw [words, List.splitOnP_append_cons before after blank, List.filter_append]
  rfl

theorem words_blanks (gap text : List Char) (blank : ∀ c ∈ gap, isBlank c) :
    words (gap ++ text) = words text := by
  induction gap with
  | nil => rfl
  | cons c gap ih =>
      have first := words_append_blank [] (gap ++ text) c (blank c List.mem_cons_self)
      rw [words_nil, List.nil_append, List.nil_append] at first
      rw [List.cons_append, first]
      exact ih fun other member => blank other (List.mem_cons_of_mem c member)

theorem words_solid (word : List Char) (solid : Solid word) : words word = [word] := by
  rw [words, List.splitOnP_eq_singleton solid.2]
  simp [solid.1]

/-- White space behind a word ends it. -/
theorem words_word (word text : List Char) (solid : Solid word)
    (parted : ∀ c ∈ text.head?, isBlank c) : words (word ++ text) = word :: words text := by
  cases text with
  | nil => rw [List.append_nil, words_solid word solid, words_nil]
  | cons c rest =>
      have blank : isBlank c := parted c rfl
      have alone := words_append_blank [] rest c blank
      rw [words_append_blank word rest c blank, words_solid word solid]
      rw [words_nil, List.nil_append, List.nil_append] at alone
      rw [alone]
      rfl

theorem words_layout (words : List (List Char)) (text : List Char) (layout : Layout words text)
    (solid : ∀ word ∈ words, Solid word) : Text.words text = words := by
  induction layout with
  | blank blank =>
      have none := words_blanks _ [] blank
      rwa [List.append_nil, words_nil] at none
  | @word gap word text words blank parted rest ih =>
      rw [List.append_assoc, words_blanks _ _ blank,
        words_word word text (solid word List.mem_cons_self) parted]
      rw [ih fun other member => solid other (List.mem_cons_of_mem word member)]

theorem layout_blanks (gap text : List Char) (words : List (List Char))
    (blank : ∀ c ∈ gap, isBlank c) (layout : Layout words text) : Layout words (gap ++ text) := by
  cases layout with
  | blank others =>
      apply Layout.blank
      intro c member
      rcases List.mem_append.mp member with left | right
      · exact blank c left
      · exact others c right
  | @word inner word text words others parted rest =>
      rw [← List.append_assoc, ← List.append_assoc]
      refine Layout.word ?_ parted rest
      intro c member
      rcases List.mem_append.mp member with left | right
      · exact blank c left
      · exact others c right

theorem exists_layout (text : List Char) :
    ∃ words, Layout words text ∧ ∀ word ∈ words, Solid word := by
  induction text with
  | nil => exact ⟨[], .blank (by simp), by simp⟩
  | cons c rest ih =>
      obtain ⟨words, layout, solid⟩ := ih
      by_cases blank : isBlank c
      · exact ⟨words, layout_blanks [c] rest words (by simpa using blank) layout, solid⟩
      · -- The character starts a word of its own unless the rest starts with one.
        have lone : Solid [c] := by simpa [Solid] using blank
        cases layout with
        | blank others =>
            have parted : ∀ next ∈ rest.head?, isBlank next :=
              fun next first => others next (List.mem_of_head? first)
            exact ⟨[[c]], @Layout.word [] [c] rest [] (by simp) parted (.blank others), by simpa using lone⟩
        | @word gap word text words others parted later =>
            cases gap with
            | nil =>
                have longer : Solid (c :: word) := by
                  refine ⟨List.cons_ne_nil c word, ?_⟩
                  intro other member
                  rcases List.mem_cons.mp member with rfl | inside
                  · exact Bool.eq_false_iff.mpr blank
                  · exact (solid word List.mem_cons_self).2 other inside
                refine ⟨(c :: word) :: words, @Layout.word [] _ _ _ (by simp) parted later, ?_⟩
                intro other member
                rcases List.mem_cons.mp member with rfl | inside
                · exact longer
                · exact solid other (List.mem_cons_of_mem word inside)
            | cons space gap =>
                have cut : ∀ next ∈ (space :: gap ++ word ++ text).head?, isBlank next := by
                  simpa using others space List.mem_cons_self
                refine ⟨[c] :: word :: words,
                  @Layout.word [] [c] _ _ (by simp) cut (.word others parted later), ?_⟩
                intro other member
                rcases List.mem_cons.mp member with rfl | inside
                · exact lone
                · exact solid other inside

/-- Every text is a layout of its words. -/
theorem layout_of_words (text : List Char) : Layout (words text) text := by
  obtain ⟨words, layout, solid⟩ := exists_layout text
  rwa [words_layout words text layout solid]

theorem words_drop_return (line : List Char) : words (dropReturn line) = words line := by
  rw [dropReturn]
  split
  next last =>
      obtain ⟨front, rfl⟩ := List.getLast?_eq_some_iff.mp last
      rw [List.dropLast_concat, words_append_blank front [] '\r' (by decide), words_nil,
        List.append_nil]
  next => rfl

theorem words_intercalate (pieces : List (List Char)) :
    words (['\n'].intercalate pieces) = pieces.flatMap words := by
  induction pieces with
  | nil => exact words_nil
  | cons piece pieces ih =>
      cases pieces with
      | nil => simp [List.intercalate]
      | cons next rest =>
          -- A line feed is white space, so the words fall apart where the lines do.
          have joined : ['\n'].intercalate (piece :: next :: rest) =
              piece ++ '\n' :: ['\n'].intercalate (next :: rest) := by
            simp [List.intercalate]
          rw [joined, words_append_blank _ _ _ (by decide), ih]
          rfl

/-- The words of a text are those of its lines. -/
theorem words_lines (text : List Char) : (lines text).flatMap words = words text := by
  obtain ⟨front, last, split, parts⟩ := lines_parts text
  have whole : words text = front.flatMap words ++ words last := by
    calc
      words text = words (['\n'].intercalate (text.splitOn '\n')) := by
        rw [List.intercalate_splitOn]
      _ = (text.splitOn '\n').flatMap words := words_intercalate _
      _ = front.flatMap words ++ words last := by
        rw [split, List.flatMap_append, List.flatMap_singleton]
  have ending : ([last].filter fun line => !line.isEmpty).flatMap words = words last := by
    cases last with
    | nil => exact words_nil.symm
    | cons c rest => simp
  have returns : (front.map dropReturn).flatMap words = front.flatMap words := by
    rw [List.flatMap_map]
    congr 1
    funext line
    exact words_drop_return line
  rw [parts, whole, List.flatMap_append, returns, ending]

end CoreBench.Text

namespace CoreBench.Waveform.Token

theorem text_of_lines (number : Nat) (lines : List (List Char)) :
    (ofLines number lines).map Token.text = lines.flatMap Text.words := by
  induction lines generalizing number with
  | nil => rfl
  | cons line rest ih =>
      have own : ((Text.words line).map (Token.mk number)).map Token.text = Text.words line := by
        rw [List.map_map]
        exact List.map_id _
      rw [ofLines, List.map_append, own, ih, List.flatMap_cons]

theorem text_of_text (text : List Char) : (ofText text).map Token.text = Text.words text := by
  rw [ofText, text_of_lines, Text.words_lines]

end CoreBench.Waveform.Token
