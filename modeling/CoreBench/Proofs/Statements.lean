import CoreBench.Bench.Statement
import CoreBench.Proofs.Characters
import CoreBench.Proofs.Cutting

/-!
How statements are written. A directive is a word after one hash sign, perhaps with a
delay, and a pair of parentheses; everything else is a note, a remark or an instruction.
A statement is read as what it is written as, so it is never more than one of these.
-/

namespace CoreBench.Statement

/-- One word, and the text behind an at sign if there is one. -/
inductive Headed : List Char → List Char → List Char → Prop where
  | plain {kind gap : List Char} (nonempty : kind ≠ []) (word : ∀ c ∈ kind, Text.isWord c = true)
      (blank : ∀ c ∈ gap, Text.isBlank c = true) : Headed (kind ++ gap) kind []
  | delayed {kind gap text : List Char} (nonempty : kind ≠ [])
      (word : ∀ c ∈ kind, Text.isWord c = true) (blank : ∀ c ∈ gap, Text.isBlank c = true)
      (line : '\n' ∉ text) : Headed (kind ++ (gap ++ '@' :: text)) kind (Text.trim text)

/-- No text asks for one cycle, any other one for the number that it is. -/
def Delays (text : List Char) (count : Nat) : Prop :=
  text = [] ∧ count = 1 ∨ Text.unsigned? 32 text = some count

/-- The text of a statement, and what kind of statement it is. -/
inductive Written : List Char → Statement → Prop where
  | todo {cs : List Char} (marked : Text.lower (cs.take 6) = "##todo".toList) : Written cs .todo
  | remark {rest : List Char}
      (unmarked : Text.lower (('#' :: '#' :: rest).take 6) ≠ "##todo".toList) :
      Written ('#' :: '#' :: rest) .remark
  | directive {head content rest kind text : List Char} {count : Nat}
      (single : head.head? ≠ some '#') (opens : '(' ∉ head) (closes : ')' ∉ rest)
      (headed : Headed (Text.trim head) kind text) (delays : Delays text count) :
      Written ('#' :: (head ++ '(' :: (content ++ ')' :: rest)))
        (.directive (Text.lower kind) count (Text.trim content))
  | bare {rest : List Char} (single : rest.head? ≠ some '#')
      (unclosed : ∀ before after, rest = before ++ '(' :: after → ')' ∉ after)
      (other : Text.lower (leadingName rest) ∉ kinds) : Written ('#' :: rest) .instruction
  | instruction {cs : List Char} (plain : cs.head? ≠ some '#') : Written cs .instruction

theorem at_sign_ends_word : Text.isWord '@' = false := by
  decide +kernel

theorem gap_ends_word (gap tail : List Char) (blank : ∀ c ∈ gap, Text.isBlank c = true)
    (ends : ∀ c ∈ tail.head?, Text.isWord c = false) :
    ∀ c ∈ (gap ++ tail).head?, Text.isWord c = false := by
  cases gap with
  | nil => exact ends
  | cons space gap =>
      rintro c ⟨⟩
      apply Bool.eq_false_iff.mpr
      intro word
      have solid := Text.word_solid space word
      rw [blank space List.mem_cons_self] at solid
      cases solid

theorem headed_of_head (head kind text : List Char) (read : head? head = some (kind, text)) :
    Headed head kind text := by
  obtain ⟨front, back, rfl, word, ends⟩ := Text.exists_run Text.isWord head
  obtain ⟨gap, tail, rfl, blank, solid⟩ := Text.exists_run Text.isBlank back
  simp only [head?, Text.take_run Text.isWord front _ word ends, List.drop_left, Text.trimStart,
    Text.drop_run Text.isBlank gap tail blank solid] at read
  by_cases empty : front = []
  · simp [empty] at read
  · have present : front.isEmpty = false := by simp [empty]
    rw [present, if_neg Bool.false_ne_true] at read
    split at read
    next =>
        cases read
        rw [List.append_nil]
        exact .plain empty word blank
    next text =>
        split at read
        next => cases read
        next line =>
            cases read
            exact .delayed empty word blank line
    next => cases read

theorem head_of_headed (head kind text : List Char) (headed : Headed head kind text) :
    head? head = some (kind, text) := by
  cases headed with
  | @plain kind gap nonempty word blank =>
      have front := Text.take_run Text.isWord kind gap word (by simpa using gap_ends_word gap [] blank (by simp))
      have back : Text.trimStart gap = [] := List.dropWhile_eq_nil_iff.mpr blank
      simp [head?, front, nonempty, back]
  | @delayed kind gap text nonempty word blank line =>
      have front := Text.take_run Text.isWord kind (gap ++ '@' :: text) word
        (gap_ends_word gap _ blank (by rintro c ⟨⟩; exact at_sign_ends_word))
      have back : Text.trimStart (gap ++ '@' :: text) = '@' :: text := by
        rw [Text.trim_start_blanks gap _ blank, Text.trimStart,
          List.dropWhile_cons_of_neg (by decide)]
      simp [head?, front, nonempty, back, line]

theorem body_some_iff (rest head content : List Char) :
    body? rest = some (head, content) ↔
      '(' ∉ head ∧ ∃ tail, ')' ∉ tail ∧ rest = head ++ '(' :: (content ++ ')' :: tail) := by
  rw [body?]
  constructor
  · intro found
    split at found
    next => cases found
    next before after opened =>
        split at found
        next => cases found
        next inner tail closed =>
            cases found
            obtain ⟨rfl, opens⟩ := (Text.cut_single_iff '(' rest head after).mp opened
            obtain ⟨rfl, closes⟩ := (Text.cut_last_iff ')' after content tail).mp closed
            exact ⟨opens, tail, closes, rfl⟩
  · rintro ⟨opens, tail, closes, rfl⟩
    rw [(Text.cut_single_iff '(' _ head _).mpr ⟨rfl, opens⟩]
    simp only
    rw [(Text.cut_last_iff ')' _ content tail).mpr ⟨rfl, closes⟩]

/-- There is no body when no parenthesis is closed behind one that is opened. -/
theorem body_none_iff (rest : List Char) :
    body? rest = none ↔ ∀ before after, rest = before ++ '(' :: after → ')' ∉ after := by
  constructor
  · intro none before after whole closed
    -- The first parenthesis that opens comes no later than this one.
    have opened : '(' ∈ rest := by simp [whole]
    obtain ⟨head, tail, rfl, opens⟩ := List.eq_append_cons_of_mem opened
    have later : ')' ∈ tail :=
      (Text.suffix_of_first '(' before after head tail whole.symm opens).subset closed
    rw [body?, (Text.cut_single_iff '(' _ head tail).mpr ⟨rfl, opens⟩] at none
    cases ends : Text.cutLast ')' tail with
    | none => exact (Text.cut_last_none_iff ')' tail).mp ends later
    | some parts => simp [ends] at none
  · intro unclosed
    cases found : body? rest with
    | none => rfl
    | some parts =>
        obtain ⟨_, tail, _, rfl⟩ := (body_some_iff rest parts.1 parts.2).mp found
        exact absurd (by simp) (unclosed parts.1 _ rfl)

theorem delay_iff (text : List Char) (count : Nat) :
    delay? text = some count ↔ Delays text count := by
  cases text with
  | nil =>
      have none : Text.unsigned? 32 [] = none := rfl
      simp [delay?, Delays, none, eq_comm]
  | cons c text => simp [delay?, Delays]

theorem kinds_contains_iff (name : List Char) : kinds.contains name = true ↔ name ∈ kinds :=
  List.contains_iff_mem

theorem marked_start (cs : List Char) (marked : Text.lower (cs.take 6) = "##todo".toList) :
    ∃ rest, cs = '#' :: '#' :: rest := by
  cases cs with
  | nil => cases marked
  | cons first rest =>
      cases rest with
      | nil =>
          have short := congrArg List.length marked
          cases short
      | cons second rest =>
          rw [Text.lower, List.take_succ_cons, List.take_succ_cons, List.map_cons,
            List.map_cons] at marked
          obtain ⟨one, others⟩ := List.cons.inj marked
          obtain ⟨two, _⟩ := List.cons.inj others
          rw [Text.eq_of_to_lower first '#' one (by decide),
            Text.eq_of_to_lower second '#' two (by decide)]
          exact ⟨rest, rfl⟩

theorem written_of_hash {rest : List Char} {form : Statement} (single : rest.head? ≠ some '#')
    (read : ofHash rest = .ok form) : Written ('#' :: rest) form := by
  rw [ofHash] at read
  split at read
  next none =>
      split at read
      next => cases read
      next other =>
          cases read
          rw [kinds_contains_iff] at other
          exact .bare single ((body_none_iff rest).mp none) other
  next head content found =>
      obtain ⟨opens, tail, closes, rfl⟩ := (body_some_iff rest head content).mp found
      have first : head.head? ≠ some '#' := by
        cases head with
        | nil => simp
        | cons c head => exact single
      simp only at read
      split at read
      next => cases read
      next kind text headed =>
          split at read
          next => cases read
          next count delays =>
              cases read
              exact .directive first opens closes (headed_of_head _ kind text headed)
                ((delay_iff text count).mp delays)

theorem hash_of_written {rest : List Char} {form : Statement} (single : rest.head? ≠ some '#')
    (written : Written ('#' :: rest) form) : ofHash rest = .ok form := by
  rw [ofHash]
  generalize whole : '#' :: rest = cs at written
  cases written with
  | todo marked =>
      obtain ⟨_, rfl⟩ := marked_start cs marked
      cases whole
      exact absurd rfl single
  | remark unmarked =>
      cases whole
      exact absurd rfl single
  | @directive head content tail kind text count _ opens closes headed delays =>
      cases whole
      have found := (body_some_iff _ head content).mpr ⟨opens, tail, closes, rfl⟩
      simp only [found, head_of_headed _ kind text headed, (delay_iff text count).mpr delays]
  | bare _ unclosed other =>
      cases whole
      rw [← kinds_contains_iff] at other
      simp only [(body_none_iff rest).mpr unclosed]
      rw [if_neg other]
  | instruction plain =>
      cases whole
      exact absurd rfl plain

/-- With one hash sign a statement is a directive, unless it has no parentheses. -/
theorem of_hash_iff (rest : List Char) (form : Statement) (single : rest.head? ≠ some '#') :
    ofHash rest = .ok form ↔ Written ('#' :: rest) form :=
  ⟨written_of_hash single, hash_of_written single⟩

/-- With two hash signs a statement is a note or a remark. -/
theorem written_double_iff (rest : List Char) (form : Statement) :
    Written ('#' :: '#' :: rest) form ↔
      (if Text.lower (('#' :: '#' :: rest).take 6) = "##todo".toList then .todo else .remark) =
        form := by
  constructor
  · intro written
    generalize whole : '#' :: '#' :: rest = cs at written
    cases written with
    | todo marked => exact if_pos marked
    | remark unmarked => exact if_neg unmarked
    | @directive head _ _ _ _ _ single =>
        cases head with
        | nil => cases whole
        | cons c head =>
            cases whole
            exact absurd rfl single
    | bare single =>
        cases whole
        exact absurd rfl single
    | instruction plain =>
        cases whole
        exact absurd rfl plain
  · rintro rfl
    split
    next marked => exact .todo marked
    next unmarked => exact .remark unmarked

theorem written_plain_iff (cs : List Char) (form : Statement) (plain : cs.head? ≠ some '#') :
    Written cs form ↔ .instruction = form := by
  constructor
  · intro written
    cases written with
    | todo marked =>
        obtain ⟨rest, rfl⟩ := marked_start cs marked
        exact absurd rfl plain
    | remark => exact absurd rfl plain
    | directive => exact absurd rfl plain
    | bare => rfl
    | instruction => rfl
  · rintro rfl
    exact .instruction plain

/-- A statement is read as what it is written as. -/
theorem classify_iff (cs : List Char) (form : Statement) :
    classify cs = .ok form ↔ Written cs form := by
  unfold classify
  by_cases marked : Text.lower (cs.take 6) = "##todo".toList
  · obtain ⟨rest, rfl⟩ := marked_start cs marked
    rw [if_pos marked, written_double_iff, if_pos marked, Except.ok.injEq]
  · rw [if_neg marked]
    split
    next rest => rw [written_double_iff, if_neg marked, Except.ok.injEq]
    next rest single =>
        refine of_hash_iff rest form ?_
        intro second
        obtain ⟨tail, rfl⟩ := List.head?_eq_some_iff.mp second
        exact single tail rfl
    next plain =>
        rw [Except.ok.injEq, written_plain_iff cs form]
        intro first
        obtain ⟨tail, rfl⟩ := List.head?_eq_some_iff.mp first
        exact plain tail rfl

end CoreBench.Statement
