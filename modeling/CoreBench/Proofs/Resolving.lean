import CoreBench.Proofs.Grammar
import CoreBench.Proofs.Naming

/-!
Operands that are written out after their names have been replaced. The text of an operand is taken
apart into the same base and the same endpoints wherever no endpoint has a bracket or a colon that
comes too early, and the endpoints of a written operand never do: only values of labels can. Where
they do not, an operand is read from the text with its name written out as it is read by name.
-/

namespace CoreBench

namespace Reference

/-- Endpoints that can be told apart when they are written in brackets. -/
structure Legible (reference : Reference) : Prop where
  closes : ∀ text, reference.first = some text ∨ reference.last = some text → ']' ∉ text.toList
  divides : ∀ text, reference.first = some text → ':' ∉ text.toList

/-- A base in front of brackets, and endpoints without white space around them. -/
structure Tidy (reference : Reference) : Prop where
  trimmed : Text.trim reference.base.toList = reference.base.toList
  opens : '[' ∉ reference.base.toList
  ends : ∀ text, reference.first = some text ∨ reference.last = some text → Text.Neat text.toList

theorem legible_plain (base : String) : Legible { base := base } where
  closes := by
    rintro text (found | found)
    · cases found
    · cases found
  divides := by
    rintro text ⟨⟩

theorem neat_of_endpoint (cs : List Char) (text : String) (found : endpoint? cs = some text) :
    Text.Neat text.toList ∧ text.toList ⊆ cs := by
  obtain ⟨present, rfl⟩ := (endpoint_some_iff cs text).mp found
  rw [String.toList_ofList]
  exact ⟨.of_trim present, Text.trim_subset cs⟩

theorem endpoint_of_neat (text : String) (neat : Text.Neat text.toList) :
    endpoint? text.toList = some text := by
  rw [endpoint_some_iff, neat.trimmed, String.ofList_toList]
  exact ⟨neat.nonempty, rfl⟩

theorem Part.neat {part : List Char} {first last : Option String} (written : Part part first last)
    (text : String) (found : first = some text ∨ last = some text) :
    Text.Neat text.toList ∧ ']' ∉ text.toList := by
  cases written with
  | missing =>
      rcases found with found | found
      · cases found
      · cases found
  | single closes undivided =>
      rcases found with found | found
      · obtain ⟨neat, inside⟩ := neat_of_endpoint _ text found
        exact ⟨neat, fun member => closes (inside member)⟩
      · cases found
  | divided closes divides =>
      rw [List.mem_append, List.mem_cons, not_or, not_or] at closes
      rcases found with found | found
      · obtain ⟨neat, inside⟩ := neat_of_endpoint _ text found
        exact ⟨neat, fun member => closes.1 (inside member)⟩
      · obtain ⟨neat, inside⟩ := neat_of_endpoint _ text found
        exact ⟨neat, fun member => closes.2.2 (inside member)⟩

theorem Part.undivided {part : List Char} {first last : Option String}
    (written : Part part first last) (text : String) (found : first = some text) :
    ':' ∉ text.toList := by
  cases written with
  | missing => cases found
  | single closes undivided =>
      exact fun member => undivided ((neat_of_endpoint _ text found).2 member)
  | divided closes divides =>
      exact fun member => divides ((neat_of_endpoint _ text found).2 member)

/-- What a text is taken apart into is tidy and legible. -/
theorem of_chars_tidy {cs : List Char} {reference : Reference}
    (read : ofChars? (Text.trim cs) = some reference) : reference.Tidy ∧ reference.Legible := by
  obtain ⟨name, _, part, _, trimmed, _, opens, written, base⟩ := (of_text_iff cs reference).mp read
  have same : reference.base.toList = name := by rw [base, String.toList_ofList]
  constructor
  · exact ⟨by rw [same, trimmed], by rwa [same], fun text found => (written.neat text found).1⟩
  · exact ⟨fun text found => (written.neat text found).2, written.undivided⟩

/-- The brackets that endpoints are written in. -/
def brackets : Option String → Option String → List Char
  | some first, some last => '[' :: ((first.toList ++ ':' :: last.toList) ++ [']'])
  | some first, none => '[' :: (first.toList ++ [']'])
  | none, some last => '[' :: (([] ++ ':' :: last.toList) ++ [']'])
  | none, none => []

theorem to_text_brackets (reference : Reference) :
    reference.toText.toList = reference.base.toList ++ brackets reference.first reference.last := by
  obtain ⟨base, first, last⟩ := reference
  cases first with
  | none =>
      cases last with
      | none => simp [toText, brackets]
      | some last => simp [toText, brackets, toString]
  | some first =>
      cases last with
      | none => simp [toText, brackets, toString]
      | some last => simp [toText, brackets, toString]

theorem to_text_plain (cs : List Char) :
    (Reference.toText { base := String.ofList cs }).toList = cs := by
  rw [to_text_brackets, brackets, List.append_nil, String.toList_ofList]

theorem brackets_nil_or (first last : Option String) :
    first = none ∧ last = none ∧ brackets first last = [] ∨
      ∃ inside, brackets first last = '[' :: (inside ++ [']']) := by
  cases first with
  | none =>
      cases last with
      | none => exact .inl ⟨rfl, rfl, rfl⟩
      | some last => exact .inr ⟨_, rfl⟩
  | some first =>
      cases last with
      | none => exact .inr ⟨_, rfl⟩
      | some last => exact .inr ⟨_, rfl⟩

theorem Tidy.to_text_trimmed {reference : Reference} (tidy : reference.Tidy) :
    Text.trim reference.toText.toList = reference.toText.toList := by
  rw [to_text_brackets]
  rcases brackets_nil_or reference.first reference.last with ⟨_, _, none⟩ | ⟨inside, whole⟩
  · rw [none, List.append_nil, tidy.trimmed]
  · rw [whole]
    have closed : Text.Neat [']'] := .single (by decide)
    by_cases empty : reference.base.toList = []
    · have opened : Text.Neat ['['] := .single (by decide)
      rw [empty]
      exact (opened.between closed inside).trimmed
    · have neat : Text.Neat reference.base.toList := ⟨empty, tidy.trimmed⟩
      exact (neat.between closed ('[' :: inside)).trimmed

theorem Tidy.brackets_part {reference : Reference} (tidy : reference.Tidy)
    (legible : reference.Legible) :
    Part (brackets reference.first reference.last) reference.first reference.last := by
  obtain ⟨base, first, last⟩ := reference
  obtain ⟨_, _, ends⟩ := tidy
  obtain ⟨closes, divides⟩ := legible
  dsimp only at *
  cases first with
  | none =>
      cases last with
      | none => exact .missing
      | some last =>
          have part := @Part.divided [] last.toList (by simpa using closes last (.inr rfl))
            List.not_mem_nil
          rwa [endpoint_of_neat last (ends last (.inr rfl))] at part
  | some first =>
      cases last with
      | none =>
          have part := Part.single (closes first (.inl rfl)) (divides first rfl)
          rwa [endpoint_of_neat first (ends first (.inl rfl))] at part
      | some last =>
          have part := @Part.divided first.toList last.toList
            (by simp [closes first (.inl rfl), closes last (.inr rfl)]) (divides first rfl)
          rwa [endpoint_of_neat first (ends first (.inl rfl)),
            endpoint_of_neat last (ends last (.inr rfl))] at part

/-- A tidy operand is taken apart again as it was, exactly if it is legible. -/
theorem Tidy.of_chars_to_text_iff {reference : Reference} (tidy : reference.Tidy) :
    ofChars? (Text.trim reference.toText.toList) = some reference ↔ reference.Legible := by
  constructor
  · intro read
    exact (of_chars_tidy read).2
  · intro legible
    rw [of_chars_iff _ _ (Text.trim_trim _), tidy.to_text_trimmed]
    exact ⟨_, _, to_text_brackets reference, tidy.opens, tidy.brackets_part legible,
      by rw [tidy.trimmed, String.ofList_toList]⟩

theorem before_opening (base part : List Char) (opens : '[' ∉ base)
    (starts : ∀ c ∈ part.head?, c = '[') : (base ++ part).takeWhile (fun c => c != '[') = base := by
  refine Text.take_run _ base part (fun c member => ?_) (fun c first => ?_)
  · rw [bne_iff_ne]
    rintro rfl
    exact opens member
  · rw [starts c first]
    rfl

theorem Part.starts {part : List Char} {first last : Option String}
    (written : Part part first last) : ∀ c ∈ part.head?, c = '[' := by
  cases written with
  | missing => simp
  | single => simp
  | divided => simp

/-- Whatever the endpoints are, the base of a written operand is found again. -/
theorem Tidy.base_of_to_text {reference again : Reference} (tidy : reference.Tidy)
    (read : ofChars? (Text.trim reference.toText.toList) = some again) :
    again.base = reference.base := by
  obtain ⟨base, part, whole, opens, written, named⟩ :=
    (of_chars_iff _ again (Text.trim_trim _)).mp read
  have starts : ∀ c ∈ (brackets reference.first reference.last).head?, c = '[' := by
    rcases brackets_nil_or reference.first reference.last with ⟨_, _, none⟩ | ⟨inside, some⟩
    · simp [none]
    · simp [some]
  have front := before_opening base part opens written.starts
  rw [← whole, tidy.to_text_trimmed, to_text_brackets,
    before_opening _ _ tidy.opens starts] at front
  rw [named, ← front, tidy.trimmed, String.ofList_toList]

end Reference

namespace AliasTable

/-- The values that the labels of a table have. -/
def Gives (table : AliasTable) (value : String) : Prop :=
  ∃ held ∈ table.aliases, ∃ label, (label, value) ∈ held.ranges

theorem position_cases {table : AliasTable} {held : Alias} (member : held ∈ table.aliases)
    (written : Option String) (text : String)
    (found : written.map (fun label => (held.ranges.get? label).getD label) = some text) :
    written = some text ∨ table.Gives text := by
  obtain ⟨label, given, rfl⟩ := Option.map_eq_some_iff.mp found
  cases value : held.ranges.get? label with
  | none => exact .inl given
  | some value => exact .inr ⟨held, member, label, Table.mem_of_get _ _ _ value⟩

/-- Where a base is no name, nothing is replaced. -/
theorem substitute_unnamed (table : AliasTable) (reference : Reference)
    (unnamed : table.get? reference.base = none) : table.substitute reference = reference := by
  rw [substitute, unnamed]

/-- Replacing changes nothing or puts an expression in the place of the base, with endpoints that
stay as they are written or are values of labels. -/
theorem substitute_cases (table : AliasTable) (reference : Reference) :
    table.get? reference.base = none ∧ table.substitute reference = reference ∨
      ∃ held ∈ table.aliases, (table.substitute reference).base = held.expression ∧
        (∀ text, (table.substitute reference).first = some text →
          reference.first = some text ∨ table.Gives text) ∧
        ∀ text, (table.substitute reference).last = some text →
          reference.last = some text ∨ table.Gives text := by
  cases known : table.get? reference.base with
  | none => exact .inl ⟨rfl, substitute_unnamed table reference known⟩
  | some held =>
      have member := (get_some table _ held known).1
      rw [substitute, known]
      exact .inr ⟨held, member, rfl, position_cases member _, position_cases member _⟩

theorem Built.gives_neat {table : AliasTable} (built : table.Built) {value : String}
    (given : table.Gives value) : Text.Neat value.toList := by
  obtain ⟨held, member, label, labelled⟩ := given
  exact ((built.sound.entries held member).ranges _ labelled).value

theorem Built.substitute_tidy {table : AliasTable} (built : table.Built) {reference : Reference}
    (tidy : reference.Tidy) : (table.substitute reference).Tidy := by
  rcases substitute_cases table reference with ⟨_, same⟩ | ⟨held, member, base, start, finish⟩
  · rw [same]
    exact tidy
  · have expression := (built.sound.entries held member).expression
    constructor
    · rw [base, expression.neat.trimmed]
    · rw [base]
      exact fun opened => expression.plain '[' opened (by decide)
    · rintro text (found | found)
      · exact (start text found).elim (fun kept => tidy.ends text (.inl kept)) built.gives_neat
      · exact (finish text found).elim (fun kept => tidy.ends text (.inr kept)) built.gives_neat

/-- Only values of labels can make endpoints that cannot be told apart. -/
theorem substitute_legible {table : AliasTable} {reference : Reference}
    (legible : reference.Legible)
    (plain : ∀ value, table.Gives value → ']' ∉ value.toList ∧ ':' ∉ value.toList) :
    (table.substitute reference).Legible := by
  rcases substitute_cases table reference with ⟨_, same⟩ | ⟨_, _, _, start, finish⟩
  · rw [same]
    exact legible
  · constructor
    · rintro text (found | found)
      · exact (start text found).elim (fun kept => legible.closes text (.inl kept))
          fun given => (plain text given).1
      · exact (finish text found).elim (fun kept => legible.closes text (.inr kept))
          fun given => (plain text given).1
    · intro text found
      exact (start text found).elim (legible.divides text) fun given => (plain text given).2

theorem resolve_apart (table : AliasTable) (cs : List Char) (reference : Reference)
    (read : Reference.ofChars? (Text.trim cs) = some reference) :
    table.resolve cs = table.substitute reference := by
  rw [resolve, read]

theorem resolve_unclosed (table : AliasTable) (cs : List Char)
    (unclosed : Reference.ofChars? (Text.trim cs) = none) :
    table.resolve cs = { base := String.ofList (Text.trim cs) } := by
  rw [resolve, unclosed]

/-- An operand that is written out is read again as it is, exactly if it is legible, by a table
that does not name what it stands for. -/
theorem Built.resolve_written_out_iff {table : AliasTable} (built : table.Built)
    (other : AliasTable) (cs : List Char)
    (stops : ∀ reference, Reference.ofChars? (Text.trim cs) = some reference →
      other.get? (table.substitute reference).base = none) :
    other.resolve (table.resolve cs).toText.toList = table.resolve cs ↔
      (table.resolve cs).Legible := by
  cases read : Reference.ofChars? (Text.trim cs) with
  | none =>
      rw [resolve_unclosed table cs read, Reference.to_text_plain,
        resolve_unclosed other _ (by rw [Text.trim_trim, read]), Text.trim_trim]
      exact iff_of_true rfl (Reference.legible_plain _)
  | some reference =>
      have unnamed := stops reference read
      have tidy := built.substitute_tidy (Reference.of_chars_tidy read).1
      rw [resolve_apart table cs reference read]
      generalize table.substitute reference = found at unnamed tidy
      rw [← tidy.of_chars_to_text_iff]
      cases again : Reference.ofChars? (Text.trim found.toText.toList) with
      | none =>
          rw [resolve_unclosed other _ again]
          refine iff_of_false (fun same => ?_) (by simp)
          have legible := Reference.legible_plain (String.ofList (Text.trim found.toText.toList))
          rw [same, ← tidy.of_chars_to_text_iff, again] at legible
          cases legible
      | some second =>
          have base := tidy.base_of_to_text again
          rw [resolve_apart other _ second again, substitute_unnamed other second (base ▸ unnamed),
            Option.some.injEq]

theorem Built.resolve_trimmed {table : AliasTable} (built : table.Built) (cs : List Char) :
    Text.trim (table.resolve cs).toText.toList = (table.resolve cs).toText.toList := by
  cases read : Reference.ofChars? (Text.trim cs) with
  | none => rw [resolve_unclosed table cs read, Reference.to_text_plain, Text.trim_trim]
  | some reference =>
      rw [resolve_apart table cs reference read]
      exact (built.substitute_tidy (Reference.of_chars_tidy read).1).to_text_trimmed

theorem resolve_legible (table : AliasTable) (cs : List Char)
    (plain : ∀ value, table.Gives value → ']' ∉ value.toList ∧ ':' ∉ value.toList) :
    (table.resolve cs).Legible := by
  cases read : Reference.ofChars? (Text.trim cs) with
  | none =>
      rw [resolve_unclosed table cs read]
      exact Reference.legible_plain _
  | some reference =>
      rw [resolve_apart table cs reference read]
      exact substitute_legible (Reference.of_chars_tidy read).2 plain

/-- Where no alias stands for another, a resolved operand is resolved to itself exactly if its
endpoints can be told apart, and so it is always unless a value has a bracket or a colon. -/
theorem Built.resolve_again_iff {table : AliasTable} (built : table.Built)
    (single : ∀ held ∈ table.aliases, table.get? held.expression = none) (cs : List Char) :
    (table.resolve (table.resolve cs).toText.toList = table.resolve cs ↔
      (table.resolve cs).Legible) ∧
    ((∀ value, table.Gives value → ']' ∉ value.toList ∧ ':' ∉ value.toList) →
      table.resolve (table.resolve cs).toText.toList = table.resolve cs) := by
  have again := built.resolve_written_out_iff table cs fun reference _ => by
    rcases substitute_cases table reference with ⟨unnamed, same⟩ | ⟨held, member, base, _⟩
    · rw [same, unnamed]
    · rw [base, single held member]
  exact ⟨again, fun plain => again.mpr (resolve_legible table cs plain)⟩

/-- A label in front of a number, with white space that is not written again. -/
theorem label_resolved_again :
    ∃ table, define {} "foo=r3[byte=7]".toList = .ok (⟨"foo", "r3", [("byte", "7")]⟩, table) ∧
      (∀ held ∈ table.aliases, table.get? held.expression = none) ∧
      table.resolve "foo [ byte:0 ]".toList = ⟨"r3", some "7", some "0"⟩ ∧
      table.resolve "r3[7:0]".toList = ⟨"r3", some "7", some "0"⟩ := by
  have defined : define {} "foo=r3[byte=7]".toList = .ok (⟨"foo", "r3", [("byte", "7")]⟩,
      ⟨[⟨"foo", "r3", [("byte", "7")]⟩]⟩) := by decide +kernel
  have single : ∀ held ∈ (⟨[⟨"foo", "r3", [("byte", "7")]⟩]⟩ : AliasTable).aliases,
      (⟨[⟨"foo", "r3", [("byte", "7")]⟩]⟩ : AliasTable).get? held.expression = none := by
    rw [List.forall_mem_singleton]
    decide
  have resolved :
      (⟨[⟨"foo", "r3", [("byte", "7")]⟩]⟩ : AliasTable).resolve "foo [ byte:0 ]".toList =
        ⟨"r3", some "7", some "0"⟩ := by decide +kernel
  refine ⟨_, defined, single, resolved, ?_⟩
  have again := ((Built.empty.define defined).resolve_again_iff single "foo [ byte:0 ]".toList).2
  rw [resolved] at again
  refine again ?_
  rintro value ⟨held, member, label, labelled⟩
  obtain rfl := List.mem_singleton.mp member
  cases List.mem_singleton.mp labelled
  decide

/-- A value with a colon is one endpoint, and becomes two when it is written out. -/
theorem divided_value_splits :
    ∃ table, define {} "foo=r3[byte=7 : 0]".toList =
        .ok (⟨"foo", "r3", [("byte", "7 : 0")]⟩, table) ∧ table.Built ∧
      (∀ held ∈ table.aliases, table.get? held.expression = none) ∧
      table.resolve "foo[byte]".toList = ⟨"r3", some "7 : 0", none⟩ ∧
      table.resolve (table.resolve "foo[byte]".toList).toText.toList =
        ⟨"r3", some "7", some "0"⟩ := by
  have defined : define {} "foo=r3[byte=7 : 0]".toList = .ok (⟨"foo", "r3", [("byte", "7 : 0")]⟩,
      ⟨[⟨"foo", "r3", [("byte", "7 : 0")]⟩]⟩) := by decide +kernel
  refine ⟨_, defined, .define .empty defined, ?_, by decide +kernel, by decide +kernel⟩
  rw [List.forall_mem_singleton]
  decide

end AliasTable

/-- The text that an unknown operand was written as is replaced. -/
def OperandError.writtenAs (written : String) : OperandError → OperandError
  | unknown token _ => unknown token written
  | error => error

namespace Operand

variable (arch : Arch) (written : String) (error : OperandError)

theorem bit_error_written_as (text : String) (read : bit arch text = .error error) :
    error.writtenAs written = error := by
  rw [bit] at read
  split at read
  next =>
    cases read
    rfl
  next =>
    split at read
    next => cases read
    next =>
      cases read
      rfl

theorem bounds_error_written_as (first last : Option String)
    (read : bounds arch first last = .error error) : error.writtenAs written = error := by
  have single (text : String)
      (mapped : (bit arch text).map (fun position => (position, position)) = .error error) :
      error.writtenAs written = error := by
    cases one : bit arch text with
    | ok position =>
        rw [one] at mapped
        cases mapped
    | error other =>
        rw [one] at mapped
        cases mapped
        exact bit_error_written_as arch written error text one
  cases first with
  | none =>
      cases last with
      | none =>
          rw [bounds] at read
          split at read
          next =>
            cases read
            rfl
          next => cases read
      | some last => exact single last read
  | some first =>
      cases last with
      | none => exact single first read
      | some last =>
          simp only [bounds] at read
          split at read
          next high =>
            cases read
            exact bit_error_written_as arch written error first high
          next =>
            split at read
            next low =>
              cases read
              exact bit_error_written_as arch written error last low
            next => cases read

/-- Errors in a register do not quote what was written. -/
theorem of_register_error_written_as (reference : Reference) (file : RegisterFile)
    (digits : List Char) (read : ofRegister arch reference file digits = .error error) :
    error.writtenAs written = error := by
  rw [ofRegister] at read
  split at read
  next =>
    cases read
    rfl
  next =>
    split at read
    next =>
      cases read
      rfl
    next =>
      split at read
      next range =>
        cases read
        exact bounds_error_written_as arch written error _ _ range
      next =>
        split at read
        next =>
          cases read
          rfl
        next => cases read

theorem of_reference_written_as (reference : Reference) (other : String) :
    ofReference arch reference other =
      (ofReference arch reference written).mapError (OperandError.writtenAs other) := by
  rw [ofReference, ofReference]
  split
  next file digits _ =>
    cases read : ofRegister arch reference file digits with
    | ok operand => rfl
    | error error =>
        exact congrArg Except.error (of_register_error_written_as arch other error _ _ _ read).symm
  next =>
    split
    next => rfl
    next =>
      split
      next =>
        split
        next => rfl
        next => rfl
      next =>
        split
        next => rfl
        next => rfl

/-- An operand with a name means what its text means with the name written out, where the values
of labels are decimal numbers. Errors differ at most in the text that they quote. -/
theorem parse_written_out {table : AliasTable} (built : table.Built) (cs : List Char)
    (decimal : ∀ value, table.Gives value → ∃ position, Text.Decimal value.toList position) :
    parse arch {} (table.resolve cs).toText.toList =
      (parse arch table cs).mapError (OperandError.writtenAs (table.resolve cs).toText) := by
  have plain (value : String) (given : table.Gives value) :
      ']' ∉ value.toList ∧ ':' ∉ value.toList := by
    obtain ⟨position, digits⟩ := decimal value given
    exact ⟨Text.decimal_not_mem _ position ']' digits (by decide),
      Text.decimal_not_mem _ position ':' digits (by decide)⟩
  have legible := table.resolve_legible cs plain
  have same := (built.resolve_written_out_iff {} cs fun _ _ => rfl).mpr legible
  rw [parse, parse, same, built.resolve_trimmed, String.ofList_toList]
  exact of_reference_written_as arch _ _ _

/-- One name is replaced and not the name that it stands for, so the text written out is unknown. -/
theorem nested_written_out :
    ∃ first table : AliasTable,
      AliasTable.define {} "bar=r3[byte=07]".toList = .ok (⟨"bar", "r3", [("byte", "07")]⟩, first) ∧
      first.define "foo=bar".toList = .ok (⟨"foo", "bar", []⟩, table) ∧
      (∀ value, table.Gives value → ∃ position, Text.Decimal value.toList position) ∧
      parse {} {} (table.resolve "bar[byte]".toList).toText.toList =
        .ok (.register .general ⟨3, 7, 7⟩) ∧
      parse {} table "foo[byte]".toList = .error (.unknown "bar[byte]" "foo[byte]") ∧
      parse {} {} (table.resolve "foo[byte]".toList).toText.toList =
        .error (.unknown "bar[byte]" "bar[byte]") := by
  have one : AliasTable.define {} "bar=r3[byte=07]".toList = .ok (⟨"bar", "r3", [("byte", "07")]⟩,
      ⟨[⟨"bar", "r3", [("byte", "07")]⟩]⟩) := by decide +kernel
  have two : AliasTable.define ⟨[⟨"bar", "r3", [("byte", "07")]⟩]⟩ "foo=bar".toList =
      .ok (⟨"foo", "bar", []⟩, ⟨[⟨"bar", "r3", [("byte", "07")]⟩, ⟨"foo", "bar", []⟩]⟩) := by
    decide +kernel
  have built := (AliasTable.Built.empty.define one).define two
  have decimal (value : String)
      (given : AliasTable.Gives ⟨[⟨"bar", "r3", [("byte", "07")]⟩, ⟨"foo", "bar", []⟩]⟩ value) :
      ∃ position, Text.Decimal value.toList position := by
    obtain ⟨held, member, label, labelled⟩ := given
    rcases List.mem_cons.mp member with rfl | member
    · cases List.mem_singleton.mp labelled
      exact ⟨7, 1, by decide⟩
    · obtain rfl := List.mem_singleton.mp member
      cases labelled
  refine ⟨_, _, one, two, decimal, ?_, by decide +kernel, ?_⟩
  · exact (parse_written_out {} built "bar[byte]".toList decimal).trans (by decide +kernel)
  · exact (parse_written_out {} built "foo[byte]".toList decimal).trans (by decide +kernel)

end Operand

end CoreBench
