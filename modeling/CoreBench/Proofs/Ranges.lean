import CoreBench.Proofs.Numerals
import CoreBench.Proofs.Operands
import CoreBench.Proofs.Trimming

/-!
Bit ranges of operands. A range stands in brackets that close where the text ends, and has no,
one or two endpoints, which are decimal numbers with white space around them. Where the
brackets do not close at the end, the text as a whole is taken for a base.
-/

namespace CoreBench

namespace Reference

/-- The brackets at the end of a text, with the range inside taken apart as far as it goes. -/
inductive Part : List Char → Option String → Option String → Prop where
  | missing : Part [] none none
  | single {range : List Char} (closes : ']' ∉ range) (undivided : ':' ∉ range) :
      Part ('[' :: (range ++ [']'])) (endpoint? range) none
  | divided {one other : List Char} (closes : ']' ∉ one ++ ':' :: other) (divides : ':' ∉ one) :
      Part ('[' :: ((one ++ ':' :: other) ++ [']'])) (endpoint? one) (endpoint? other)

/-- A text is taken apart where it has no brackets or they close at its end. -/
theorem of_chars_iff (cs : List Char) (reference : Reference) (trimmed : Text.trim cs = cs) :
    ofChars? cs = some reference ↔
      ∃ base part, cs = base ++ part ∧ '[' ∉ base ∧ Part part reference.first reference.last ∧
        reference.base = String.ofList (Text.trim base) := by
  constructor
  · intro read
    rw [ofChars?] at read
    split at read
    next plain =>
      cases read
      exact ⟨cs, [], (List.append_nil cs).symm, (Text.cut_single_none_iff '[' cs).mp plain, .missing,
        by rw [trimmed]⟩
    next base rest opened =>
      obtain ⟨rfl, opens⟩ := (Text.cut_single_iff '[' cs base rest).mp opened
      split at read
      next range closed =>
        obtain ⟨rfl, closes⟩ := (Text.cut_single_iff ']' rest range []).mp closed
        dsimp only at read
        split at read
        next one other divided =>
          obtain ⟨rfl, divides⟩ := (Text.cut_single_iff ':' range one other).mp divided
          cases read
          exact ⟨base, _, rfl, opens, .divided closes divides, rfl⟩
        next undivided =>
          cases read
          exact ⟨base, _, rfl, opens,
            .single closes ((Text.cut_single_none_iff ':' range).mp undivided), rfl⟩
      next => cases read
  · rintro ⟨base, part, rfl, opens, written, same⟩
    obtain ⟨name, first, last⟩ := reference
    dsimp only at written same
    subst same
    rw [ofChars?]
    cases written with
    | missing =>
        rw [List.append_nil] at *
        rw [(Text.cut_single_none_iff '[' base).mpr opens, trimmed]
    | @single range closes undivided =>
        rw [(Text.cut_single_iff '[' _ base _).mpr ⟨rfl, opens⟩]
        simp only [(Text.cut_single_iff ']' _ range []).mpr ⟨rfl, closes⟩,
          (Text.cut_single_none_iff ':' range).mpr undivided]
    | @divided one other closes divides =>
        rw [(Text.cut_single_iff '[' _ base _).mpr ⟨rfl, opens⟩]
        simp only [(Text.cut_single_iff ']' _ _ []).mpr ⟨rfl, closes⟩,
          (Text.cut_single_iff ':' _ one other).mpr ⟨rfl, divides⟩]

/-- A text is taken apart into a name and a range with white space between them. -/
theorem of_text_iff (cs : List Char) (reference : Reference) :
    ofChars? (Text.trim cs) = some reference ↔
      ∃ name gap part, Text.trim cs = name ++ (gap ++ part) ∧ Text.trim name = name ∧
        (∀ c ∈ gap, Text.isBlank c = true) ∧ '[' ∉ name ∧
        Part part reference.first reference.last ∧ reference.base = String.ofList name := by
  rw [of_chars_iff (Text.trim cs) reference (Text.trim_trim cs)]
  constructor
  · rintro ⟨base, part, whole, opens, written, named⟩
    obtain ⟨front, gap, before, after, around⟩ := Text.trim_between base
    have trimmed := Text.trim_trim cs
    rw [whole, around, List.append_assoc] at trimmed
    have first : front = [] := Text.trimmed_front front _ before trimmed
    rw [first, List.nil_append] at around
    rw [around, List.mem_append, not_or] at opens
    refine ⟨Text.trim base, gap, part, ?_, Text.trim_trim base, after, opens.1, written, named⟩
    rw [whole, ← List.append_assoc, ← around]
  · rintro ⟨name, gap, part, whole, trimmed, blank, opens, written, named⟩
    refine ⟨name ++ gap, part, by rw [whole, List.append_assoc], ?_, written, ?_⟩
    · rw [List.mem_append, not_or]
      exact ⟨opens, Text.solid_not_mem gap '[' blank (by decide)⟩
    · rw [Text.trim_append_blanks gap name blank, trimmed, named]

theorem of_name (cs name gap part : List Char) (start finish : Option String)
    (whole : Text.trim cs = name ++ (gap ++ part)) (letters : ∀ c ∈ name, c.isAlphanum = true)
    (blank : ∀ c ∈ gap, Text.isBlank c = true) (written : Part part start finish) :
    ofChars? (Text.trim cs) = some ⟨String.ofList name, start, finish⟩ :=
  (of_text_iff cs _).mpr ⟨name, gap, part, whole,
    Text.trim_solid name fun c member => Text.alphanum_solid c (letters c member), blank,
    fun member => absurd (letters '[' member) (by decide), written, rfl⟩

/-- A range in brackets, from the first that opens to the end of the text. -/
structure Bracketed (cs base range : List Char) : Prop where
  whole : cs = base ++ '[' :: (range ++ [']'])
  opens : '[' ∉ base
  closes : ']' ∉ range

/-- Whatever stands in brackets is taken apart. -/
theorem exists_part (range : List Char) (closes : ']' ∉ range) :
    ∃ first last, Part ('[' :: (range ++ [']'])) first last := by
  cases cut : Text.cut [':'] range with
  | none => exact ⟨_, _, .single closes ((Text.cut_single_none_iff ':' range).mp cut)⟩
  | some parts =>
      obtain ⟨rfl, divides⟩ := (Text.cut_single_iff ':' range parts.1 parts.2).mp cut
      exact ⟨_, _, .divided closes divides⟩

theorem Part.brackets {part : List Char} {first last : Option String} (written : Part part first last)
    (present : part ≠ []) : ∃ range, part = '[' :: (range ++ [']']) ∧ ']' ∉ range := by
  cases written with
  | missing => exact absurd rfl present
  | single closes => exact ⟨_, rfl, closes⟩
  | divided closes => exact ⟨_, rfl, closes⟩

/-- The brackets of a text are the ones that are taken apart. -/
theorem Bracketed.part {cs base range front part : List Char} {first last : Option String}
    (bracketed : Bracketed cs base range) (whole : cs = front ++ part) (opens : '[' ∉ front)
    (written : Part part first last) : part = '[' :: (range ++ [']']) := by
  have present : part ≠ [] := by
    rintro rfl
    rw [List.append_nil] at whole
    have opened : '[' ∈ cs := by simp [bracketed.whole]
    exact opens (whole ▸ opened)
  obtain ⟨inside, rfl, _⟩ := written.brackets present
  have one := (Text.cut_single_iff '[' cs base _).mpr ⟨bracketed.whole, bracketed.opens⟩
  have other := (Text.cut_single_iff '[' cs front _).mpr ⟨whole, opens⟩
  rw [one, Option.some.injEq, Prod.mk.injEq] at other
  rw [other.2]

theorem of_chars_none_iff (cs : List Char) (trimmed : Text.trim cs = cs) :
    ofChars? cs = none ↔ '[' ∈ cs ∧ ∀ base range, ¬ Bracketed cs base range := by
  rw [Option.eq_none_iff_forall_ne_some]
  constructor
  · intro none
    constructor
    · by_contra plain
      exact none { base := String.ofList (Text.trim cs) } ((of_chars_iff cs _ trimmed).mpr
        ⟨cs, [], (List.append_nil cs).symm, plain, .missing, rfl⟩)
    · rintro base range ⟨whole, opens, closes⟩
      obtain ⟨first, last, part⟩ := exists_part range closes
      exact none ⟨String.ofList (Text.trim base), first, last⟩ ((of_chars_iff cs _ trimmed).mpr
        ⟨base, _, whole, opens, part, rfl⟩)
  · rintro ⟨opened, unclosed⟩ reference read
    obtain ⟨base, part, rfl, opens, written, _⟩ := (of_chars_iff cs reference trimmed).mp read
    have present : part ≠ [] := by
      rintro rfl
      exact opens (by simpa using opened)
    obtain ⟨range, rfl, closes⟩ := written.brackets present
    exact unclosed base range ⟨rfl, opens, closes⟩

/-- An endpoint as text: a decimal number, or nothing but white space. -/
inductive Endpoint : List Char → Option Nat → Prop where
  | missing {gap : List Char} (blank : ∀ c ∈ gap, Text.isBlank c = true) : Endpoint gap none
  | number {before digits after : List Char} {position : Nat}
      (front : ∀ c ∈ before, Text.isBlank c = true) (back : ∀ c ∈ after, Text.isBlank c = true)
      (decimal : Text.Decimal digits position) : Endpoint (before ++ (digits ++ after)) (some position)

/-- The range part of an operand as text, with the endpoints that it has. -/
inductive Range : List Char → Option Nat → Option Nat → Prop where
  | missing : Range [] none none
  | single {range : List Char} {first : Option Nat} (endpoint : Endpoint range first) :
      Range ('[' :: (range ++ [']'])) first none
  | divided {one other : List Char} {first last : Option Nat} (start : Endpoint one first)
      (finish : Endpoint other last) : Range ('[' :: ((one ++ ':' :: other) ++ [']'])) first last

/-- Whether an endpoint that was taken out of a range is missing or a number. -/
inductive Position : Option String → Option Nat → Prop where
  | missing : Position none none
  | number {text : String} {position : Nat} (decimal : Text.Decimal (Text.trim text.toList) position) :
      Position (some text) (some position)

theorem position_none_iff (text : Option String) : Position text none ↔ text = none := by
  constructor
  · rintro ⟨⟩
    rfl
  · rintro rfl
    exact .missing

theorem position_some_iff (text : Option String) (position : Nat) :
    Position text (some position) ↔
      ∃ written, text = some written ∧ Text.Decimal (Text.trim written.toList) position := by
  constructor
  · rintro ⟨⟩
    next decimal => exact ⟨_, rfl, decimal⟩
  · rintro ⟨written, rfl, decimal⟩
    exact .number decimal

theorem endpoint_none_iff (cs : List Char) :
    endpoint? cs = none ↔ ∀ c ∈ cs, Text.isBlank c = true := by
  rw [← Text.trim_nil_iff, endpoint?, ← List.isEmpty_iff]
  cases (Text.trim cs).isEmpty with
  | true => simp
  | false => simp

theorem endpoint_some_iff (cs : List Char) (text : String) :
    endpoint? cs = some text ↔ Text.trim cs ≠ [] ∧ String.ofList (Text.trim cs) = text := by
  rw [endpoint?, Option.ite_none_left_eq_some, List.isEmpty_iff, Option.some.injEq]

theorem endpoint_iff (cs : List Char) (position : Option Nat) :
    Endpoint cs position ↔ Position (endpoint? cs) position := by
  cases position with
  | none =>
      rw [position_none_iff, endpoint_none_iff]
      constructor
      · rintro ⟨⟩
        assumption
      · exact .missing
  | some position =>
      simp only [position_some_iff, endpoint_some_iff]
      constructor
      · rintro ⟨⟩
        next before digits after front back decimal =>
          have trimmed : Text.trim (before ++ (digits ++ after)) = digits := by
            rw [Text.trim_blanks_append before _ front, Text.trim_append_blanks after _ back,
              Text.trim_solid digits (Text.decimal_solid digits position decimal)]
          refine ⟨_, ⟨?_, rfl⟩, ?_⟩
          · rw [trimmed]
            exact Text.decimal_nonempty digits position decimal
          · rw [String.toList_ofList, Text.trim_trim, trimmed]
            exact decimal
      · rintro ⟨_, ⟨_, rfl⟩, decimal⟩
        rw [String.toList_ofList, Text.trim_trim] at decimal
        obtain ⟨before, after, front, back, whole⟩ := Text.trim_between cs
        rw [whole]
        exact .number front back decimal

theorem Endpoint.absent {cs : List Char} {position : Option Nat} (endpoint : Endpoint cs position)
    (c : Char) (solid : Text.isBlank c = false) (other : c.isDigit = false) : c ∉ cs := by
  cases endpoint with
  | missing blank => exact Text.solid_not_mem _ c blank solid
  | number front back decimal =>
      simp only [List.mem_append, not_or]
      exact ⟨Text.solid_not_mem _ c front solid, Text.decimal_not_mem _ _ c decimal other,
        Text.solid_not_mem _ c back solid⟩

/-- Taking a range apart finds the endpoints that it is written with. -/
theorem range_iff (part : List Char) (first last : Option Nat) :
    Range part first last ↔
      ∃ start finish, Part part start finish ∧ Position start first ∧ Position finish last := by
  constructor
  · intro range
    cases range with
    | missing => exact ⟨none, none, .missing, .missing, .missing⟩
    | single endpoint =>
        exact ⟨_, none, .single (endpoint.absent ']' (by decide) (by decide))
          (endpoint.absent ':' (by decide) (by decide)), (endpoint_iff _ _).mp endpoint, .missing⟩
    | divided start finish =>
        refine ⟨_, _, .divided ?_ (start.absent ':' (by decide) (by decide)),
          (endpoint_iff _ _).mp start, (endpoint_iff _ _).mp finish⟩
        simp [start.absent ']' (by decide) (by decide), finish.absent ']' (by decide) (by decide)]
  · rintro ⟨start, finish, part, one, other⟩
    cases part with
    | missing =>
        cases one
        cases other
        exact .missing
    | single =>
        cases other
        exact .single ((endpoint_iff _ _).mpr one)
    | divided => exact .divided ((endpoint_iff _ _).mpr one) ((endpoint_iff _ _).mpr other)

end Reference

namespace Operand

/-- The highest and the lowest bit that the endpoints of a range stand for. -/
def selected (wordSize : Nat) : Option Nat → Option Nat → Nat × Nat
  | none, none => (wordSize - 1, 0)
  | some position, none => (position, position)
  | none, some position => (position, position)
  | some hi, some lo => (hi, lo)

theorem bit_decimal (arch : Arch) (text : String) (position : Nat)
    (read : bit arch text = .ok position) : Text.Decimal (Text.trim text.toList) position :=
  (Text.decimal_iff _ _).mp ((Text.within_eq_some_iff 32 _ _).mp ((bit_ok_iff arch text _).mp read).1).1

theorem bit_of_decimal (arch : Arch) (text : String) (position : Nat)
    (short : arch.wordSize ≤ 1 <<< 32) (decimal : Text.Decimal (Text.trim text.toList) position)
    (inside : position < arch.wordSize) : bit arch text = .ok position :=
  (bit_ok_iff arch text position).mpr
    ⟨(Text.within_eq_some_iff 32 _ _).mpr ⟨(Text.decimal_iff _ _).mpr decimal, by omega⟩, inside⟩

/-- The bits that a range selects are those of its endpoints. -/
theorem bounds_selected (arch : Arch) (start finish : Option String) (hi lo : Nat)
    (read : bounds arch start finish = .ok (hi, lo)) :
    ∃ first last, Reference.Position start first ∧ Reference.Position finish last ∧
      selected arch.wordSize first last = (hi, lo) := by
  cases (bounds_ok_iff arch start finish hi lo).mp read with
  | whole => exact ⟨none, none, .missing, .missing, rfl⟩
  | first position =>
      exact ⟨some hi, none, .number (bit_decimal arch _ hi position), .missing, rfl⟩
  | last position =>
      exact ⟨none, some hi, .missing, .number (bit_decimal arch _ hi position), rfl⟩
  | both high low =>
      exact ⟨some hi, some lo, .number (bit_decimal arch _ hi high),
        .number (bit_decimal arch _ lo low), rfl⟩

theorem bounds_of_selected (arch : Arch) (start finish : Option String) (first last : Option Nat)
    (hi lo : Nat) (short : arch.wordSize ≤ 1 <<< 32) (one : Reference.Position start first)
    (other : Reference.Position finish last)
    (bits : selected arch.wordSize first last = (hi, lo)) (order : lo ≤ hi)
    (inside : hi < arch.wordSize) : bounds arch start finish = .ok (hi, lo) := by
  rw [bounds_ok_iff]
  cases one with
  | missing =>
      cases other with
      | missing =>
          cases bits
          exact .whole (Nat.ne_zero_of_lt inside)
      | number decimal =>
          cases bits
          exact .last (bit_of_decimal arch _ hi short decimal inside)
  | number decimal =>
      cases other with
      | missing =>
          cases bits
          exact .first (bit_of_decimal arch _ hi short decimal inside)
      | number low =>
          cases bits
          exact .both (bit_of_decimal arch _ hi short decimal inside)
            (bit_of_decimal arch _ lo short low (by omega))

end Operand

end CoreBench
