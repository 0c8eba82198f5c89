import CoreBench.Proofs.Labelling
import CoreBench.Proofs.Statements

/-!
How aliases are defined. A definition is a name and an expression around an equals sign, with a
list of labels behind either of them or none. Wherever the list stands and however much white
space there is, the same alias is read.
-/

namespace CoreBench

namespace Alias

theorem expression_char_iff (c : Char) :
    isExpressionChar c = true ↔ c ∉ ['[', ']', '(', ')', '='] := by
  simp [isExpressionChar]

/-- The label list behind a name, as it is written and what is between the brackets. -/
inductive Lead : List Char → Option (List Char) → Prop where
  | missing : Lead [] none
  | square {labels : List Char} (closes : ']' ∉ labels) :
      Lead ('[' :: (labels ++ [']'])) (some labels)

/-- The label list behind an expression, as it is written and what is between the brackets. -/
inductive Trail : List Char → Option (List Char) → Prop where
  | missing : Trail [] none
  | square {labels : List Char} (closes : ']' ∉ labels) :
      Trail ('[' :: (labels ++ [']'])) (some labels)
  | round {labels : List Char} (closes : ')' ∉ labels) :
      Trail ('(' :: (labels ++ [')'])) (some labels)

/-- A definition with the parts that it is taken apart into. -/
inductive Apart : List Char → Parts → Prop where
  | mk {name gap lead space body trail : List Char} {before after : Option (List Char)}
      (nonempty : name ≠ []) (word : ∀ c ∈ name, Text.isWord c = true)
      (blank : ∀ c ∈ gap, Text.isBlank c = true) (front : Lead lead before)
      (white : ∀ c ∈ space, Text.isBlank c = true)
      (plain : ∀ c ∈ body, isExpressionChar c = true) (back : Trail trail after) :
      Apart (name ++ (gap ++ (lead ++ (space ++ '=' :: (body ++ trail)))))
        ⟨name, Text.trim body, before, after⟩

theorem lead_of_leading (cs rest : List Char) (before : Option (List Char))
    (read : leading? cs = some (before, rest)) : ∃ lead, Lead lead before ∧ cs = lead ++ rest := by
  rw [leading?.eq_def] at read
  split at read
  next inside =>
    obtain ⟨⟨labels, tail⟩, closed, same⟩ := Option.map_eq_some_iff.mp read
    cases same
    obtain ⟨rfl, closes⟩ := (Text.cut_single_iff ']' inside labels tail).mp closed
    exact ⟨_, .square closes, by simp⟩
  next =>
    cases read
    exact ⟨[], .missing, rfl⟩

theorem leading_of_lead (lead rest : List Char) (before : Option (List Char))
    (front : Lead lead before) (closed : rest.head? ≠ some '[') :
    leading? (lead ++ rest) = some (before, rest) := by
  cases front with
  | missing =>
      rw [List.nil_append, leading?.eq_2]
      rintro tail rfl
      exact closed rfl
  | @square labels closes =>
      have cut := (Text.cut_single_iff ']' _ labels rest).mpr ⟨rfl, closes⟩
      simp [leading?, bracketed?, cut]

/-- A list that ends the definition closes at its end and not before. -/
theorem closed_iff (close : Char) (cs : List Char) (after : Option (List Char)) :
    (((bracketed? close cs).filter fun parts => parts.2.isEmpty).map fun parts => some parts.1) =
        some after ↔
      ∃ labels, cs = labels ++ [close] ∧ close ∉ labels ∧ some labels = after := by
  rw [Option.map_eq_some_iff]
  constructor
  · rintro ⟨⟨labels, tail⟩, closed, same⟩
    obtain ⟨found, ends⟩ := Option.filter_eq_some_iff.mp closed
    obtain rfl := List.isEmpty_iff.mp ends
    obtain ⟨whole, closes⟩ := (Text.cut_single_iff close cs labels []).mp found
    exact ⟨labels, whole, closes, same⟩
  · rintro ⟨labels, rfl, closes, same⟩
    exact ⟨(labels, []), Option.filter_eq_some_iff.mpr
      ⟨(Text.cut_single_iff close _ labels []).mpr ⟨rfl, closes⟩, rfl⟩, same⟩

theorem trailing_iff (cs : List Char) (after : Option (List Char)) :
    trailing? cs = some after ↔ Trail cs after := by
  constructor
  · intro read
    rw [trailing?.eq_def] at read
    split at read
    next =>
      cases read
      exact .missing
    next rest =>
      obtain ⟨labels, rfl, closes, rfl⟩ := (closed_iff ']' rest after).mp read
      exact .square closes
    next rest =>
      obtain ⟨labels, rfl, closes, rfl⟩ := (closed_iff ')' rest after).mp read
      exact .round closes
    next => cases read
  · intro trail
    cases trail with
    | missing => rfl
    | square closes => exact (closed_iff ']' _ _).mpr ⟨_, rfl, closes, rfl⟩
    | round closes => exact (closed_iff ')' _ _).mpr ⟨_, rfl, closes, rfl⟩

theorem mark_ends_word : Text.isWord '=' = false ∧ Text.isWord '[' = false := by
  decide +kernel

theorem Lead.ends_word {lead space : List Char} {before : Option (List Char)}
    (front : Lead lead before) (tail : List Char) (white : ∀ c ∈ space, Text.isBlank c = true) :
    ∀ c ∈ (lead ++ (space ++ '=' :: tail)).head?, Text.isWord c = false := by
  cases front with
  | missing =>
      refine Statement.gap_ends_word space _ white ?_
      rintro c ⟨⟩
      exact mark_ends_word.1
  | square =>
      rintro c ⟨⟩
      exact mark_ends_word.2

theorem Trail.stops {trail : List Char} {after : Option (List Char)} (back : Trail trail after) :
    ∀ c ∈ trail.head?, isExpressionChar c = false := by
  cases back with
  | missing => simp
  | square =>
      rintro c ⟨⟩
      rfl
  | round =>
      rintro c ⟨⟩
      rfl

/-- Behind the name stands its list, and behind that the equals sign. -/
theorem leading_found {gap lead space : List Char} (tail : List Char) {before : Option (List Char)}
    (blank : ∀ c ∈ gap, Text.isBlank c = true) (front : Lead lead before)
    (white : ∀ c ∈ space, Text.isBlank c = true) :
    ∃ rest, leading? (Text.trimStart (gap ++ (lead ++ (space ++ '=' :: tail)))) =
        some (before, rest) ∧
      Text.trimStart rest = '=' :: tail := by
  have solid : Text.trimStart ('=' :: tail) = '=' :: tail := List.dropWhile_cons_of_neg (by decide)
  rw [Text.trim_start_blanks gap _ blank]
  cases front with
  | missing =>
      rw [List.nil_append, Text.trim_start_blanks space _ white, solid]
      exact ⟨'=' :: tail, leading_of_lead [] _ none .missing (by simp), solid⟩
  | @square labels closes =>
      refine ⟨space ++ '=' :: tail, ?_, by rw [Text.trim_start_blanks space _ white, solid]⟩
      rw [List.cons_append, Text.trimStart, List.dropWhile_cons_of_neg (by decide),
        ← List.cons_append]
      apply leading_of_lead _ _ _ (.square closes)
      intro opened
      cases space with
      | nil => cases opened
      | cons c space =>
          obtain rfl : c = '[' := Option.some.inj opened
          exact absurd (white '[' List.mem_cons_self) (by decide)

theorem apart_of_parts {cs : List Char} {parts : Parts} (read : parts? cs = some parts) :
    Apart cs parts := by
  obtain ⟨name, back, rfl, word, ends⟩ := Text.exists_run Text.isWord cs
  obtain ⟨gap, tail, rfl, blank, solid⟩ := Text.exists_run Text.isBlank back
  rw [parts?, Text.take_run Text.isWord name _ word ends, List.drop_left, Text.trimStart,
    Text.drop_run Text.isBlank gap tail blank solid] at read
  split at read
  next => cases read
  next present =>
    obtain ⟨⟨before, rest⟩, led, inside⟩ := Option.bind_eq_some_iff.mp read
    obtain ⟨lead, front, rfl⟩ := lead_of_leading tail rest before led
    obtain ⟨space, inner, rfl, white, starts⟩ := Text.exists_run Text.isBlank rest
    dsimp only at inside
    rw [Text.trimStart, Text.drop_run Text.isBlank space inner white starts] at inside
    split at inside
    next text =>
      obtain ⟨after, trailed, same⟩ := Option.bind_eq_some_iff.mp inside
      obtain ⟨body, trail, rfl, plain, stops⟩ := Text.exists_run isExpressionChar text
      rw [Text.drop_run isExpressionChar body trail plain stops] at trailed
      rw [Text.take_run isExpressionChar body trail plain stops] at same
      cases same
      exact .mk (mt List.isEmpty_iff.mpr present) word blank front white plain
        ((trailing_iff trail after).mp trailed)
    next => cases inside

theorem parts_of_apart {cs : List Char} {parts : Parts} (apart : Apart cs parts) :
    parts? cs = some parts := by
  obtain @⟨name, gap, lead, space, body, trail, before, after, nonempty, word, blank, front, white,
    plain, back⟩ := apart
  have ends := Statement.gap_ends_word gap _ blank (front.ends_word (body ++ trail) white)
  obtain ⟨rest, led, found⟩ := leading_found (body ++ trail) blank front white
  rw [parts?, Text.take_run Text.isWord name _ word ends, List.drop_left,
    if_neg (by simpa using nonempty)]
  refine Option.bind_eq_some_iff.mpr ⟨(before, rest), led, ?_⟩
  dsimp only
  rw [found]
  refine Option.bind_eq_some_iff.mpr ⟨after, ?_, ?_⟩
  · rw [Text.drop_run isExpressionChar body trail plain back.stops]
    exact (trailing_iff trail after).mpr back
  · rw [Text.take_run isExpressionChar body trail plain back.stops]

/-- A text is taken apart where it is written as a name and an expression with lists. -/
theorem parts_iff (cs : List Char) (parts : Parts) : parts? cs = some parts ↔ Apart cs parts :=
  ⟨apart_of_parts, parts_of_apart⟩

/-- A name is one word, in any script. -/
structure IsName (name : String) : Prop where
  nonempty : name.toList ≠ []
  word : ∀ c ∈ name.toList, Text.isWord c = true

/-- An expression has no brackets, parentheses or equals signs, and no white space at its ends. -/
structure IsExpression (expression : String) : Prop where
  neat : Text.Neat expression.toList
  plain : ∀ c ∈ expression.toList, c ∉ ['[', ']', '(', ')', '=']

/-- A definition with a list of labels, and the character that closes the list. The list stands
behind the name, or behind the expression in brackets of either kind. -/
inductive Spelling (name expression : String) (labels : List Char) : Char → List Char → Prop where
  | leading {one gap other : List Char} (named : Text.Padded name.toList one)
      (blank : ∀ c ∈ gap, Text.isBlank c = true) (means : Text.Padded expression.toList other) :
      Spelling name expression labels ']' (one ++ '[' :: (labels ++ ']' :: (gap ++ '=' :: other)))
  | square {one gap other : List Char} (named : Text.Padded name.toList one)
      (blank : ∀ c ∈ gap, Text.isBlank c = true) (means : Text.Padded expression.toList other) :
      Spelling name expression labels ']' (one ++ '=' :: (other ++ '[' :: (labels ++ ']' :: gap)))
  | round {one gap other : List Char} (named : Text.Padded name.toList one)
      (blank : ∀ c ∈ gap, Text.isBlank c = true) (means : Text.Padded expression.toList other) :
      Spelling name expression labels ')' (one ++ '=' :: (other ++ '(' :: (labels ++ ')' :: gap)))

theorem Spelling.closer {name expression : String} {labels cs : List Char} {close : Char}
    (spelling : Spelling name expression labels close cs) : close ∈ [']', ')'] := by
  cases spelling with
  | leading => decide
  | square => decide
  | round => decide

/-- The texts that define an alias. -/
inductive Written : List Char → Alias → Prop where
  | plain {one other : List Char} {name expression : String} (word : IsName name)
      (term : IsExpression expression) (named : Text.Padded name.toList one)
      (means : Text.Padded expression.toList other) :
      Written (one ++ '=' :: other) ⟨name, expression, []⟩
  | labelled {cs labels : List Char} {close : Char} {name expression : String}
      {pairs : List (String × String)} (word : IsName name) (term : IsExpression expression)
      (spelling : Spelling name expression labels close cs) (closes : close ∉ labels)
      (listed : Labels.Listed labels pairs) (allowed : ∀ pair ∈ pairs, Labels.Allowed pair) :
      Written cs ⟨name, expression, Labels.insertAll [] pairs⟩

/-- What becomes of the parts of a definition. -/
structure Yields (parts : Parts) (fresh : Alias) : Prop where
  present : parts.expression ≠ []
  single : parts.before = none ∨ parts.after = none
  ranges : Labels.ofChars ((parts.before.or parts.after).getD []) = .ok fresh.ranges
  name : String.ofList parts.name = fresh.name
  expression : String.ofList parts.expression = fresh.expression

theorem of_chars_iff_apart (cs : List Char) (fresh : Alias) :
    ofChars cs = .ok fresh ↔ ∃ parts, Apart (Text.trim cs) parts ∧ Yields parts fresh := by
  simp only [ofChars]
  constructor
  · intro read
    split at read
    next => cases read
    next parts found =>
      split at read
      next => cases read
      next known =>
        rw [Bool.or_eq_true, not_or, Bool.and_eq_true, not_and_or, Bool.not_eq_true,
          Bool.not_eq_true, Bool.not_eq_true, List.isEmpty_eq_false_iff, Option.isSome_eq_false_iff,
          Option.isSome_eq_false_iff, Option.isNone_iff_eq_none, Option.isNone_iff_eq_none] at known
        split at read
        next => cases read
        next ranges labels =>
          cases read
          exact ⟨parts, (parts_iff _ parts).mp found, known.1, known.2, labels, rfl, rfl⟩
  · rintro ⟨parts, apart, present, single, read, named, means⟩
    have known :
        ¬ (parts.expression.isEmpty || (parts.before.isSome && parts.after.isSome)) = true := by
      rcases single with none | none
      · simp [none, present]
      · simp [none, present]
    simp only [(parts_iff _ parts).mpr apart, if_neg known, read, named, means]

theorem IsName.neat {name : String} (word : IsName name) : Text.Neat name.toList :=
  .of_solid word.nonempty fun c member => Text.word_solid c (word.word c member)

theorem IsExpression.padded_plain {expression : String} (term : IsExpression expression)
    {before after : List Char} (blank : ∀ c ∈ before, Text.isBlank c = true)
    (white : ∀ c ∈ after, Text.isBlank c = true) :
    ∀ c ∈ before ++ (expression.toList ++ after), isExpressionChar c = true := by
  have other (c : Char) (space : Text.isBlank c = true) : isExpressionChar c = true := by
    rw [expression_char_iff]
    intro member
    have solid : ['[', ']', '(', ')', '='].all fun c => !Text.isBlank c := by decide
    have := List.all_eq_true.mp solid c member
    rw [space] at this
    cases this
  intro c member
  rcases List.mem_append.mp member with front | inside
  · exact other c (blank c front)
  · rcases List.mem_append.mp inside with inside | back
    · exact (expression_char_iff c).mpr (term.plain c inside)
    · exact other c (white c back)

/-- A name and an expression are taken apart however much white space is around them. -/
theorem Apart.of_names {name expression : String} (word : IsName name)
    (term : IsExpression expression) {gap lead space inner outer trail : List Char}
    {before after : Option (List Char)}
    (blank : ∀ c ∈ gap, Text.isBlank c = true) (front : Lead lead before)
    (white : ∀ c ∈ space, Text.isBlank c = true) (left : ∀ c ∈ inner, Text.isBlank c = true)
    (right : ∀ c ∈ outer, Text.isBlank c = true) (back : Trail trail after) :
    Apart (name.toList ++ (gap ++ (lead ++ (space ++ '=' ::
      ((inner ++ (expression.toList ++ outer)) ++ trail)))))
        ⟨name.toList, expression.toList, before, after⟩ := by
  have parts :=
    Apart.mk word.nonempty word.word blank front white (term.padded_plain left right) back
  rwa [term.neat.trim_padded ⟨inner, outer, left, right, rfl⟩] at parts

/-- A definition without a list is taken apart into what it is made of. -/
theorem apart_plain {name expression : String} (word : IsName name)
    (term : IsExpression expression) {one other : List Char} (named : Text.Padded name.toList one)
    (means : Text.Padded expression.toList other) :
    Apart (Text.trim (one ++ '=' :: other)) ⟨name.toList, expression.toList, none, none⟩ := by
  obtain ⟨front, gap, before, blank, rfl⟩ := named
  obtain ⟨inner, back, left, after, rfl⟩ := means
  have trimmed := word.neat.trim_around term.neat front (gap ++ '=' :: inner) back before after
  have parts := Apart.of_names word term blank .missing (List.forall_mem_nil _) left
    (List.forall_mem_nil _) .missing
  simp only [List.append_assoc, List.cons_append, List.nil_append, List.append_nil] at *
  rw [trimmed]
  exact parts

/-- A list behind the expression ends the definition. -/
theorem apart_trailing {name expression : String} (word : IsName name)
    (term : IsExpression expression) {one other gap labels : List Char} {opens close : Char}
    (named : Text.Padded name.toList one)
    (means : Text.Padded expression.toList other) (blank : ∀ c ∈ gap, Text.isBlank c = true)
    (solid : Text.isBlank close = false)
    (back : Trail (opens :: (labels ++ [close])) (some labels)) :
    Apart (Text.trim (one ++ '=' :: (other ++ opens :: (labels ++ close :: gap))))
      ⟨name.toList, expression.toList, none, some labels⟩ := by
  obtain ⟨front, space, before, white, rfl⟩ := named
  obtain ⟨inner, outer, left, right, rfl⟩ := means
  have trimmed := word.neat.trim_around (.single solid) front
    (space ++ '=' :: (inner ++ (expression.toList ++ (outer ++ opens :: labels)))) gap before blank
  have parts := Apart.of_names word term white .missing (List.forall_mem_nil _) left right back
  simp only [List.append_assoc, List.cons_append, List.nil_append] at *
  rw [trimmed]
  exact parts

/-- A list behind the name stands in front of the equals sign. -/
theorem apart_leading {name expression : String} (word : IsName name)
    (term : IsExpression expression) {one other gap labels : List Char}
    (named : Text.Padded name.toList one) (means : Text.Padded expression.toList other) (blank : ∀ c ∈ gap, Text.isBlank c = true)
    (closes : ']' ∉ labels) :
    Apart (Text.trim (one ++ '[' :: (labels ++ ']' :: (gap ++ '=' :: other))))
      ⟨name.toList, expression.toList, some labels, none⟩ := by
  obtain ⟨front, space, before, white, rfl⟩ := named
  obtain ⟨inner, back, left, after, rfl⟩ := means
  have trimmed := word.neat.trim_around term.neat front
    (space ++ '[' :: (labels ++ ']' :: (gap ++ '=' :: inner))) back before after
  have parts := Apart.of_names word term white (.square closes) blank left (List.forall_mem_nil _)
    .missing
  simp only [List.append_assoc, List.cons_append, List.nil_append, List.append_nil] at *
  rw [trimmed]
  exact parts

theorem Spelling.yields {name expression : String} {labels cs : List Char} {close : Char}
    {ranges : Labels} (word : IsName name) (term : IsExpression expression)
    (spelling : Spelling name expression labels close cs) (closes : close ∉ labels)
    (read : Labels.ofChars labels = .ok ranges) : ofChars cs = .ok ⟨name, expression, ranges⟩ := by
  rw [of_chars_iff_apart]
  have present := term.neat.nonempty
  have named := String.ofList_toList (s := name)
  have means := String.ofList_toList (s := expression)
  cases spelling with
  | leading left blank right =>
      exact ⟨_, apart_leading word term left right blank closes, present, .inr rfl, read, named,
        means⟩
  | square left blank right =>
      exact ⟨_, apart_trailing word term left right blank (by decide) (.square closes), present,
        .inl rfl, read, named, means⟩
  | round left blank right =>
      exact ⟨_, apart_trailing word term left right blank (by decide) (.round closes), present,
        .inl rfl, read, named, means⟩

theorem Spelling.written {name expression : String} {labels cs : List Char} {close : Char}
    {ranges : Labels} (spelling : Spelling name expression labels close cs) (word : IsName name)
    (term : IsExpression expression) (closes : close ∉ labels)
    (read : Labels.ofChars labels = .ok ranges) : Written cs ⟨name, expression, ranges⟩ := by
  obtain ⟨pairs, listed, allowed, rfl⟩ := (Labels.of_chars_ok_iff labels ranges).mp read
  exact .labelled word term spelling closes listed allowed

theorem is_name_of_list {name : List Char} (nonempty : name ≠ [])
    (word : ∀ c ∈ name, Text.isWord c = true) : IsName (String.ofList name) := by
  constructor
  · rw [String.toList_ofList]
    exact nonempty
  · rw [String.toList_ofList]
    exact word

theorem is_expression_of_trim {body : List Char} (plain : ∀ c ∈ body, isExpressionChar c = true)
    (present : Text.trim body ≠ []) : IsExpression (String.ofList (Text.trim body)) := by
  constructor
  · rw [String.toList_ofList]
    exact .of_trim present
  · rw [String.toList_ofList]
    exact fun c member => (expression_char_iff c).mp (plain c (Text.trim_subset body member))

/-- What is taken apart is written as a name and an expression, perhaps with a list. -/
theorem written_of_apart {cs : List Char} {parts : Parts} {fresh : Alias}
    (apart : Apart (Text.trim cs) parts) (yields : Yields parts fresh) : Written cs fresh := by
  obtain ⟨outer, final, before, after, around⟩ := Text.trim_between cs
  generalize Text.trim cs = text at apart around
  subst around
  obtain ⟨known, expression, ranges⟩ := fresh
  obtain ⟨present, single, read, named, means⟩ := yields
  dsimp only at read named means
  subst named means
  obtain @⟨name, gap, lead, space, body, trail, leading, trailing, nonempty, letters, blank, front,
    white, plain, back⟩ := apart
  dsimp only at present single read ⊢
  have word := is_name_of_list nonempty letters
  have term := is_expression_of_trim plain present
  have padded (tail : List Char) (spaces : ∀ c ∈ tail, Text.isBlank c = true) :
      Text.Padded (String.ofList name).toList (outer ++ (name ++ tail)) := by
    rw [String.toList_ofList]
    exact ⟨outer, tail, before, spaces, rfl⟩
  have trimmed (tail : List Char) (spaces : ∀ c ∈ tail, Text.isBlank c = true) :
      Text.Padded (String.ofList (Text.trim body)).toList (body ++ tail) := by
    rw [String.toList_ofList]
    exact (Text.padded_trim body).between [] tail (List.forall_mem_nil _) spaces
  have unspaced := trimmed [] (List.forall_mem_nil _)
  have both := List.forall_mem_append.mpr ⟨blank, white⟩
  -- where the list stands: nowhere, behind the expression, or behind the name
  cases front with
  | missing =>
      cases back with
      | missing =>
          obtain rfl : [] = ranges := Except.ok.inj read
          have written := Written.plain word term (padded _ both) (trimmed final after)
          simpa only [List.append_assoc, List.cons_append, List.nil_append, List.append_nil]
            using written
      | square closes =>
          have written := Spelling.written (.square (padded _ both) after unspaced)
            word term closes read
          simpa only [List.append_assoc, List.cons_append, List.nil_append] using written
      | round closes =>
          have written := Spelling.written (.round (padded _ both) after unspaced)
            word term closes read
          simpa only [List.append_assoc, List.cons_append, List.nil_append] using written
  | square closes =>
      obtain rfl : trailing = none := single.resolve_left (by simp)
      cases back
      have written := Spelling.written (.leading (padded gap blank) white (trimmed final after))
        word term closes read
      simpa only [List.append_assoc, List.cons_append, List.nil_append, List.append_nil]
        using written

/-- A text is read as an alias where it is written as one. -/
theorem of_chars_ok_iff (cs : List Char) (fresh : Alias) :
    ofChars cs = .ok fresh ↔ Written cs fresh := by
  constructor
  · intro read
    obtain ⟨parts, apart, yields⟩ := (of_chars_iff_apart cs fresh).mp read
    exact written_of_apart apart yields
  · intro written
    cases written with
    | plain word term named means =>
        exact (of_chars_iff_apart _ _).mpr ⟨_, apart_plain word term named means,
          term.neat.nonempty, .inl rfl, rfl, String.ofList_toList, String.ofList_toList⟩
    | labelled word term spelling closes listed allowed =>
        exact spelling.yields word term closes
          ((Labels.of_chars_ok_iff _ _).mpr ⟨_, listed, allowed, rfl⟩)

end Alias

namespace AliasTable

theorem define_ok_iff (table grown : AliasTable) (cs : List Char) (fresh : Alias) :
    table.define cs = .ok (fresh, grown) ↔
      Alias.ofChars cs = .ok fresh ∧ table.get? fresh.name = none ∧
        grown = ⟨table.aliases ++ [fresh]⟩ := by
  rw [define]
  cases Alias.ofChars cs with
  | error error => simp
  | ok read =>
      dsimp only
      rw [Except.ok.injEq]
      by_cases known : table.get? read.name = none
      · rw [if_neg (by simp [known]), Except.ok.injEq, Prod.mk.injEq]
        constructor
        · rintro ⟨rfl, rfl⟩
          exact ⟨rfl, known, rfl⟩
        · rintro ⟨rfl, _, rfl⟩
          exact ⟨rfl, rfl⟩
      · rw [if_pos (Option.isSome_iff_ne_none.mpr known)]
        constructor
        · rintro ⟨⟩
        · rintro ⟨rfl, free, _⟩
          exact absurd free known

theorem get_append (table : AliasTable) (fresh : Alias) (name : String) :
    (⟨table.aliases ++ [fresh]⟩ : AliasTable).get? name =
      (table.get? name).or (if fresh.name = name then some fresh else none) := by
  rw [get?, get?, List.find?_append]
  by_cases named : fresh.name = name
  · simp [named]
  · simp [named]

/-- A table never loses or replaces an entry. -/
theorem define_keeps (table grown : AliasTable) (cs : List Char) (fresh : Alias)
    (defined : table.define cs = .ok (fresh, grown)) (name : String) (held : Alias)
    (known : table.get? name = some held) : grown.get? name = some held := by
  obtain ⟨_, _, rfl⟩ := (define_ok_iff table grown cs fresh).mp defined
  rw [get_append, known, Option.some_or]

/-- The three spellings of a definition define the same. The entry has the name and the expression,
and each label has the value that it was given last. -/
theorem spellings_agree (table : AliasTable) (name expression : String)
    (pairs : List (String × String)) (word : Alias.IsName name)
    (term : Alias.IsExpression expression)
    (unmarked : ∀ pair ∈ pairs, Labels.Unmarked pair.1 ∧ Labels.Unmarked pair.2)
    (free : table.get? name = none) :
    ∃ (ranges : Labels) (grown : AliasTable),
      (∀ label, ranges.get? label = Table.get? pairs.reverse label) ∧
      (∀ other, grown.get? other =
        if other = name then some ⟨name, expression, ranges⟩ else table.get? other) ∧
      ∀ labels close cs, Labels.Listed labels pairs →
        Alias.Spelling name expression labels close cs →
          table.define cs = .ok (⟨name, expression, ranges⟩, grown) := by
  refine ⟨Labels.insertAll [] pairs,
    ⟨table.aliases ++ [⟨name, expression, Labels.insertAll [] pairs⟩]⟩, ?_, ?_, ?_⟩
  · intro label
    rw [Labels.get_insert_all]
    exact Option.or_none
  · intro other
    rw [get_append]
    by_cases same : name = other
    · subst same
      rw [free, Option.none_or, if_pos rfl]
    · rw [if_neg same, if_neg (Ne.symm same), Option.or_none]
  · intro labels close cs listed spelling
    have allowed (pair : String × String) (member : pair ∈ pairs) : Labels.Allowed pair :=
      .of_unmarked (unmarked pair member).1 (unmarked pair member).2
    have closes := listed.unclosed unmarked close spelling.closer
    exact (define_ok_iff _ _ _ _).mpr ⟨spelling.yields word term closes
      ((Labels.of_chars_ok_iff labels _).mpr ⟨pairs, listed, allowed, rfl⟩), free, rfl⟩

/-- One label is given two values, and the second one counts in all spellings. -/
theorem twice_labelled_agree :
    ({ aliases := [⟨"a", "r1", []⟩] } : AliasTable).get? "foo" = none ∧
    ∃ (ranges : Labels) (grown : AliasTable), ranges.get? "hi" = some "6" ∧
      grown.get? "foo" = some ⟨"foo", "r3", ranges⟩ ∧
      define { aliases := [⟨"a", "r1", []⟩] } "foo [hi=7, hi=6]\t=r3".toList =
        .ok (⟨"foo", "r3", ranges⟩, grown) ∧
      define { aliases := [⟨"a", "r1", []⟩] } " foo=r3 [hi=7, hi=6]".toList =
        .ok (⟨"foo", "r3", ranges⟩, grown) ∧
      define { aliases := [⟨"a", "r1", []⟩] } "foo= r3(hi=7, hi=6) ".toList =
        .ok (⟨"foo", "r3", ranges⟩, grown) := by
  have word : Alias.IsName "foo" := ⟨by decide, List.all_eq_true.mp (by decide +kernel)⟩
  have term : Alias.IsExpression "r3" := ⟨⟨by decide, by decide⟩, fun c member =>
    (Alias.expression_char_iff c).mp (List.all_eq_true.mp (by decide) c member)⟩
  have unmarked : ∀ pair ∈ [("hi", "7"), ("hi", "6")],
      Labels.Unmarked pair.1 ∧ Labels.Unmarked pair.2 := by
    rw [List.forall_mem_cons, List.forall_mem_singleton]
    have label : Labels.Unmarked "hi" := .of_alphanum (by decide) (List.all_eq_true.mp (by decide))
    exact ⟨⟨label, .of_alphanum (by decide) (List.all_eq_true.mp (by decide))⟩,
      ⟨label, .of_alphanum (by decide) (List.all_eq_true.mp (by decide))⟩⟩
  have free : ({ aliases := [⟨"a", "r1", []⟩] } : AliasTable).get? "foo" = none := by decide
  have none : ∀ c ∈ [], Text.isBlank c = true := List.forall_mem_nil _
  have space : ∀ c ∈ [' '], Text.isBlank c = true := List.all_eq_true.mp rfl
  have listed : Labels.Listed "hi=7, hi=6".toList [("hi", "7"), ("hi", "6")] := by
    have text : "hi=7, hi=6".toList = ("hi".toList ++ '=' :: "7".toList) ++
        ',' :: (([' '] ++ ("hi".toList ++ [])) ++ '=' :: "6".toList) := by decide
    rw [text]
    exact .next (.pair (Text.padded_self _) (Text.padded_self _))
      (.last (.pair ⟨[' '], [], space, none, rfl⟩ (Text.padded_self _)))
  have leading : Alias.Spelling "foo" "r3" "hi=7, hi=6".toList ']'
      "foo [hi=7, hi=6]\t=r3".toList := by
    have text : "foo [hi=7, hi=6]\t=r3".toList = ([] ++ ("foo".toList ++ [' '])) ++
        '[' :: ("hi=7, hi=6".toList ++ ']' :: (['\t'] ++ '=' :: "r3".toList)) := by decide
    rw [text]
    exact .leading ⟨[], [' '], none, space, rfl⟩ (List.all_eq_true.mp rfl) (Text.padded_self _)
  have square : Alias.Spelling "foo" "r3" "hi=7, hi=6".toList ']'
      " foo=r3 [hi=7, hi=6]".toList := by
    have text : " foo=r3 [hi=7, hi=6]".toList = ([' '] ++ ("foo".toList ++ [])) ++
        '=' :: (([] ++ ("r3".toList ++ [' '])) ++ '[' :: ("hi=7, hi=6".toList ++ [']'])) := by
      decide
    rw [text]
    exact .square ⟨[' '], [], space, none, rfl⟩ none
      ⟨[], [' '], none, space, rfl⟩
  have round : Alias.Spelling "foo" "r3" "hi=7, hi=6".toList ')'
      "foo= r3(hi=7, hi=6) ".toList := by
    have text : "foo= r3(hi=7, hi=6) ".toList = "foo".toList ++
        '=' :: (([' '] ++ ("r3".toList ++ [])) ++
          '(' :: ("hi=7, hi=6".toList ++ ')' :: [' '])) := by
      decide
    rw [text]
    exact .round (Text.padded_self _) space ⟨[' '], [], space, none, rfl⟩
  obtain ⟨ranges, grown, last, kept, agree⟩ :=
    spellings_agree _ "foo" "r3" _ word term unmarked free
  exact ⟨free, ranges, grown, last "hi", kept "foo", agree _ _ _ listed leading,
    agree _ _ _ listed square, agree _ _ _ listed round⟩

end AliasTable

end CoreBench
