import CoreBench.Bench.Alias
import CoreBench.Proofs.Characters
import CoreBench.Proofs.Trimming

/-!
Lists of labels. A list is read piece by piece between its commas, and a piece is a label with
its value or nothing but white space. Of the values that a label is given the last one counts.
-/

namespace CoreBench

/-- An entry that stands further in front hides those behind it. -/
theorem Table.get_append {Value : Type} (one other : Table Value) (key : String) :
    Table.get? (one ++ other) key = (one.get? key).or (other.get? key) := by
  induction one with
  | nil => rfl
  | cons entry rest ih =>
      obtain ⟨held, value⟩ := entry
      rw [List.cons_append, get?, get?]
      by_cases here : held = key
      · rw [if_pos here, if_pos here, Option.some_or]
      · rw [if_neg here, if_neg here, ih]

theorem Table.mem_of_get {Value : Type} (table : Table Value) (key : String) (value : Value)
    (found : table.get? key = some value) : (key, value) ∈ table := by
  induction table with
  | nil => cases found
  | cons entry rest ih =>
      obtain ⟨held, old⟩ := entry
      rw [get?] at found
      split at found
      next same =>
        cases found
        rw [same]
        exact List.mem_cons_self
      next => exact List.mem_cons_of_mem _ (ih found)

namespace Labels

theorem get_insert (labels : Labels) (label value other : String) :
    (labels.insert label value).get? other =
      if label = other then some value else labels.get? other := by
  induction labels with
  | nil => rfl
  | cons entry rest ih =>
      obtain ⟨held, old⟩ := entry
      rw [insert]
      split
      next => rfl
      next =>
        split
        next same =>
          subst same
          by_cases here : label = other
          · simp [Table.get?, here]
          · simp [Table.get?, here]
        next apart =>
          rw [Table.get?, Table.get?, ih]
          by_cases here : held = other
          · subst here
            simp [apart]
          · simp [here]

theorem mem_insert (labels : Labels) (label value : String) (pair : String × String)
    (member : pair ∈ labels.insert label value) : pair = (label, value) ∨ pair ∈ labels := by
  induction labels with
  | nil => exact .inl (List.mem_singleton.mp member)
  | cons entry rest ih =>
      obtain ⟨held, old⟩ := entry
      rw [insert] at member
      split at member
      next => exact List.mem_cons.mp member
      next =>
        split at member
        next =>
          rcases List.mem_cons.mp member with fresh | kept
          · exact .inl fresh
          · exact .inr (List.mem_cons_of_mem _ kept)
        next =>
          rcases List.mem_cons.mp member with first | later
          · exact .inr (first ▸ List.mem_cons_self)
          · rcases ih later with fresh | kept
            · exact .inl fresh
            · exact .inr (List.mem_cons_of_mem _ kept)

/-- Adds labels one after another. -/
def insertAll (labels : Labels) (pairs : List (String × String)) : Labels :=
  pairs.foldl (fun labels pair => labels.insert pair.1 pair.2) labels

theorem get_insert_all (labels : Labels) (pairs : List (String × String)) (label : String) :
    (labels.insertAll pairs).get? label =
      (Table.get? pairs.reverse label).or (labels.get? label) := by
  induction pairs generalizing labels with
  | nil => rfl
  | cons pair rest ih =>
      obtain ⟨held, value⟩ := pair
      rw [insertAll, List.foldl_cons, ← insertAll, ih, get_insert, List.reverse_cons,
        Table.get_append, Option.or_assoc]
      by_cases here : held = label
      · simp [Table.get?, here]
      · simp [Table.get?, here]

theorem mem_insert_all (labels : Labels) (pairs : List (String × String)) (pair : String × String)
    (member : pair ∈ labels.insertAll pairs) : pair ∈ pairs ∨ pair ∈ labels := by
  induction pairs generalizing labels with
  | nil => exact .inr member
  | cons first rest ih =>
      rw [insertAll, List.foldl_cons, ← insertAll] at member
      rcases ih _ member with later | held
      · exact .inl (List.mem_cons_of_mem _ later)
      · rcases mem_insert labels first.1 first.2 pair held with fresh | kept
        · exact .inl (fresh ▸ List.mem_cons_self)
        · exact .inr kept

/-- A label and a value that can stand in a list. -/
structure Allowed (pair : String × String) : Prop where
  label : Text.Neat pair.1.toList
  value : Text.Neat pair.2.toList
  undivided : '=' ∉ pair.1.toList
  single : ',' ∉ pair.1.toList ∧ ',' ∉ pair.2.toList

/-- A label or a value without the characters that divide or close a list. -/
structure Unmarked (text : String) : Prop where
  neat : Text.Neat text.toList
  plain : ∀ c ∈ text.toList, c ∉ [',', '=', ']', ')']

theorem Unmarked.absent {text : String} (unmarked : Unmarked text) (c : Char)
    (mark : c ∈ [',', '=', ']', ')']) : c ∉ text.toList :=
  fun member => unmarked.plain c member mark

theorem Unmarked.of_alphanum {text : String} (nonempty : text.toList ≠ [])
    (letters : ∀ c ∈ text.toList, c.isAlphanum = true) : Unmarked text where
  neat := .of_solid nonempty fun c member => Text.alphanum_solid c (letters c member)
  plain c member mark := by
    have marks : [',', '=', ']', ')'].all fun c => !c.isAlphanum := by decide
    have other := List.all_eq_true.mp marks c mark
    rw [letters c member] at other
    cases other

theorem Allowed.of_unmarked {pair : String × String} (label : Unmarked pair.1)
    (value : Unmarked pair.2) : Allowed pair where
  label := label.neat
  value := value.neat
  undivided := label.absent '=' (by decide)
  single := ⟨label.absent ',' (by decide), value.absent ',' (by decide)⟩

/-- What stands between two commas of a list: a label with its value, or nothing. -/
inductive Piece : List Char → List (String × String) → Prop where
  | blank {gap : List Char} (blank : ∀ c ∈ gap, Text.isBlank c = true) : Piece gap []
  | pair {one other : List Char} {label value : String} (named : Text.Padded label.toList one)
      (means : Text.Padded value.toList other) : Piece (one ++ '=' :: other) [(label, value)]

/-- A list of labels as text, with commas between its pieces. -/
inductive Listed : List Char → List (String × String) → Prop where
  | last {cs : List Char} {pairs : List (String × String)} (piece : Piece cs pairs) :
      Listed cs pairs
  | next {cs rest : List Char} {pairs more : List (String × String)} (piece : Piece cs pairs)
      (listed : Listed rest more) : Listed (cs ++ ',' :: rest) (pairs ++ more)

theorem pair_some_iff (cs : List Char) (pair : String × String) :
    pair? cs = some pair ↔ ∃ one other, cs = one ++ '=' :: other ∧ '=' ∉ one ∧
      Text.trim one ≠ [] ∧ Text.trim other ≠ [] ∧
      (String.ofList (Text.trim one), String.ofList (Text.trim other)) = pair := by
  rw [pair?]
  constructor
  · intro read
    split at read
    next => cases read
    next one other cut =>
      obtain ⟨rfl, divides⟩ := (Text.cut_single_iff '=' cs one other).mp cut
      dsimp only at read
      rw [Option.ite_none_left_eq_some, Bool.not_eq_true, Bool.or_eq_false_iff,
        List.isEmpty_eq_false_iff, List.isEmpty_eq_false_iff, Option.some.injEq] at read
      exact ⟨one, other, rfl, divides, read.1.1, read.1.2, read.2⟩
  · rintro ⟨one, other, rfl, divides, label, value, rfl⟩
    rw [(Text.cut_single_iff '=' _ one other).mpr ⟨rfl, divides⟩]
    dsimp only
    rw [if_neg (by simp [label, value])]

/-- White space around a pair makes no difference. -/
theorem pair_between (front cs back : List Char) (before : ∀ c ∈ front, Text.isBlank c = true)
    (after : ∀ c ∈ back, Text.isBlank c = true) : pair? (front ++ (cs ++ back)) = pair? cs := by
  have apart (gap : List Char) (blank : ∀ c ∈ gap, Text.isBlank c = true) : '=' ∉ gap :=
    Text.solid_not_mem gap '=' blank (by decide)
  cases cut : Text.cut ['='] cs with
  | none =>
      have absent := (Text.cut_single_none_iff '=' cs).mp cut
      have none : Text.cut ['='] (front ++ (cs ++ back)) = none := by
        rw [Text.cut_single_none_iff, List.mem_append, List.mem_append, not_or, not_or]
        exact ⟨apart front before, absent, apart back after⟩
      rw [pair?, pair?, none, cut]
  | some parts =>
      obtain ⟨rfl, divides⟩ := (Text.cut_single_iff '=' cs parts.1 parts.2).mp cut
      have wider : Text.cut ['='] (front ++ ((parts.1 ++ '=' :: parts.2) ++ back)) =
          some (front ++ parts.1, parts.2 ++ back) := by
        rw [Text.cut_single_iff, List.mem_append, not_or]
        exact ⟨by simp, apart front before, divides⟩
      rw [pair?, pair?, wider, cut]
      dsimp only
      rw [Text.trim_blanks_append front _ before, Text.trim_append_blanks back _ after]

theorem pair_trim (cs : List Char) : pair? (Text.trim cs) = pair? cs := by
  obtain ⟨front, back, before, after, whole⟩ := Text.trim_between cs
  rw [← pair_between front (Text.trim cs) back before after, ← whole]

theorem add_all_append (labels : Labels) (one other : List (List Char)) (grown : Labels) :
    addAll labels (one ++ other) = .ok grown ↔
      ∃ middle, addAll labels one = .ok middle ∧ addAll middle other = .ok grown := by
  induction one generalizing labels with
  | nil => simp [addAll]
  | cons cs rest ih =>
      rw [List.cons_append, addAll, addAll]
      cases pair? cs with
      | none => simp
      | some pair => exact ih _

/-- A piece has no other characters than white space, an equals sign and those of its pair. -/
theorem Piece.absent {cs : List Char} {pairs : List (String × String)} (piece : Piece cs pairs)
    (c : Char) (solid : Text.isBlank c = false) (other : c ≠ '=')
    (outside : ∀ pair ∈ pairs, c ∉ pair.1.toList ∧ c ∉ pair.2.toList) : c ∉ cs := by
  cases piece with
  | blank blank => exact Text.solid_not_mem _ c blank solid
  | @pair one rest label value named means =>
      obtain ⟨front, back⟩ := outside (label, value) List.mem_cons_self
      rw [List.mem_append, List.mem_cons, named.solid_mem_iff c solid, means.solid_mem_iff c solid]
      rintro (member | same | member)
      · exact front member
      · exact other same
      · exact back member

theorem Listed.absent {cs : List Char} {pairs : List (String × String)} (listed : Listed cs pairs)
    (c : Char) (solid : Text.isBlank c = false) (other : c ≠ '=' ∧ c ≠ ',')
    (outside : ∀ pair ∈ pairs, c ∉ pair.1.toList ∧ c ∉ pair.2.toList) : c ∉ cs := by
  induction listed with
  | last piece => exact piece.absent c solid other.1 outside
  | next piece _ ih =>
      obtain ⟨front, back⟩ := List.forall_mem_append.mp outside
      rw [List.mem_append, List.mem_cons]
      rintro (member | same | member)
      · exact piece.absent c solid other.1 front member
      · exact other.2 same
      · exact ih back member

theorem Listed.unclosed {cs : List Char} {pairs : List (String × String)} (listed : Listed cs pairs)
    (unmarked : ∀ pair ∈ pairs, Unmarked pair.1 ∧ Unmarked pair.2) :
    ∀ close ∈ [']', ')'], close ∉ cs := by
  have outside (close : Char) (mark : close ∈ [',', '=', ']', ')']) (pair : String × String)
      (member : pair ∈ pairs) : close ∉ pair.1.toList ∧ close ∉ pair.2.toList :=
    ⟨(unmarked pair member).1.absent close mark, (unmarked pair member).2.absent close mark⟩
  rw [List.forall_mem_cons, List.forall_mem_singleton]
  exact ⟨listed.absent ']' (by decide) (by decide) (outside ']' (by decide)),
    listed.absent ')' (by decide) (by decide) (outside ')' (by decide))⟩

theorem Piece.added {cs : List Char} {pairs : List (String × String)} (piece : Piece cs pairs)
    (allowed : ∀ pair ∈ pairs, Allowed pair) (labels : Labels) :
    addAll labels (Text.pieces ',' cs) = .ok (labels.insertAll pairs) := by
  have single : ',' ∉ cs := piece.absent ',' (by decide) (by decide)
    fun pair member => (allowed pair member).single
  rw [Text.pieces_unsplit ',' cs single]
  cases piece with
  | blank blank =>
      rw [if_pos ((Text.trim_nil_iff cs).mpr blank)]
      rfl
  | @pair one other label value named means =>
      obtain ⟨front, back, undivided, _, _⟩ := allowed (label, value) List.mem_cons_self
      have left : Text.trim one = label.toList := front.trim_padded named
      have right : Text.trim other = value.toList := back.trim_padded means
      have divides : '=' ∉ one := by
        rw [named.solid_mem_iff '=' (by decide)]
        exact undivided
      have read : pair? (Text.trim (one ++ '=' :: other)) = some (label, value) := by
        rw [pair_trim]
        refine (pair_some_iff _ _).mpr ⟨one, other, rfl, divides, ?_, ?_, ?_⟩
        · rw [left]
          exact front.nonempty
        · rw [right]
          exact back.nonempty
        · rw [left, right, String.ofList_toList, String.ofList_toList]
      have present : Text.trim (one ++ '=' :: other) ≠ [] := by
        rintro none
        rw [none] at read
        cases read
      rw [if_neg present, addAll, read]
      rfl

theorem piece_of_added (cs : List Char) (single : ',' ∉ cs) (labels grown : Labels)
    (read : addAll labels (Text.pieces ',' cs) = .ok grown) :
    ∃ pairs, Piece cs pairs ∧ (∀ pair ∈ pairs, Allowed pair) ∧ labels.insertAll pairs = grown := by
  rw [Text.pieces_unsplit ',' cs single] at read
  by_cases empty : Text.trim cs = []
  · rw [if_pos empty] at read
    cases read
    exact ⟨[], .blank ((Text.trim_nil_iff cs).mp empty), by simp, rfl⟩
  · rw [if_neg empty, addAll, pair_trim] at read
    cases found : pair? cs with
    | none =>
        rw [found] at read
        cases read
    | some pair =>
        rw [found] at read
        cases read
        obtain ⟨one, other, rfl, undivided, label, value, rfl⟩ := (pair_some_iff cs pair).mp found
        rw [List.mem_append, List.mem_cons, not_or, not_or] at single
        refine ⟨[_], .pair ?_ ?_, List.forall_mem_singleton.mpr ⟨?_, ?_, ?_, ?_, ?_⟩, rfl⟩
        · rw [String.toList_ofList]
          exact Text.padded_trim one
        · rw [String.toList_ofList]
          exact Text.padded_trim other
        · rw [String.toList_ofList]
          exact .of_trim label
        · rw [String.toList_ofList]
          exact .of_trim value
        · rw [String.toList_ofList, Text.solid_mem_trim one '=' (by decide)]
          exact undivided
        · rw [String.toList_ofList, Text.solid_mem_trim one ',' (by decide)]
          exact single.1
        · rw [String.toList_ofList, Text.solid_mem_trim other ',' (by decide)]
          exact single.2.2

theorem listed_of_added (cs : List Char) (labels grown : Labels)
    (read : addAll labels (Text.pieces ',' cs) = .ok grown) :
    ∃ pairs, Listed cs pairs ∧ (∀ pair ∈ pairs, Allowed pair) ∧ labels.insertAll pairs = grown := by
  cases cut : Text.cut [','] cs with
  | none =>
      obtain ⟨pairs, piece, allowed, same⟩ :=
        piece_of_added cs ((Text.cut_single_none_iff ',' cs).mp cut) labels grown read
      exact ⟨pairs, .last piece, allowed, same⟩
  | some parts =>
      obtain ⟨whole, single⟩ := (Text.cut_single_iff ',' cs parts.1 parts.2).mp cut
      rw [whole, Text.pieces_append, add_all_append] at read
      obtain ⟨middle, first, later⟩ := read
      obtain ⟨pairs, piece, allowed, rfl⟩ := piece_of_added parts.1 single labels middle first
      obtain ⟨more, listed, others, rfl⟩ := listed_of_added parts.2 _ grown later
      rw [whole]
      exact ⟨pairs ++ more, .next piece listed, List.forall_mem_append.mpr ⟨allowed, others⟩,
        List.foldl_append⟩
termination_by cs.length
decreasing_by
  rw [whole, List.length_append, List.length_cons]
  omega

theorem Listed.added {cs : List Char} {pairs : List (String × String)} (listed : Listed cs pairs)
    (allowed : ∀ pair ∈ pairs, Allowed pair) (labels : Labels) :
    addAll labels (Text.pieces ',' cs) = .ok (labels.insertAll pairs) := by
  induction listed generalizing labels with
  | last piece => exact piece.added allowed labels
  | next piece _ ih =>
      obtain ⟨first, later⟩ := List.forall_mem_append.mp allowed
      rw [Text.pieces_append, add_all_append]
      exact ⟨_, piece.added first labels, (ih later _).trans (congrArg _ List.foldl_append.symm)⟩

/-- A text is read as a list of labels where it is written as one. -/
theorem of_chars_ok_iff (cs : List Char) (labels : Labels) :
    ofChars cs = .ok labels ↔
      ∃ pairs, Listed cs pairs ∧ (∀ pair ∈ pairs, Allowed pair) ∧ insertAll [] pairs = labels := by
  constructor
  · exact listed_of_added cs [] labels
  · rintro ⟨pairs, listed, allowed, rfl⟩
    exact listed.added allowed []

end Labels

end CoreBench
