import CoreBench.Proofs.Numerals
import CoreBench.Proofs.Recording
import CoreBench.Proofs.Timescale

/-!
Writing a value change dump: which words it consists of, and which waveform it stands
for. Every variable is written between the scopes that it stands in, and the changes
in the order of their timestamps.
-/

namespace CoreBench.Waveform

/-- A variable with the scopes around it, the outermost one first. -/
structure Declaration where
  scopes : List (List Char)
  kind : List Char
  width : Nat
  identifier : List Char
  name : List Char
  deriving DecidableEq, Repr

/-- What stands behind the definitions: timestamps and changes. -/
inductive Entry where
  | time (count : Nat)
  | vector (levels identifier : List Char)
  | single (level : Char) (identifier : List Char)
  deriving DecidableEq, Repr

structure Document where
  unit : List Char
  declarations : List Declaration
  entries : List Entry
  deriving DecidableEq, Repr

/-- A word that can stand in a section. -/
def Plain (word : List Char) : Prop :=
  Text.Solid word ∧ word ≠ "$end".toList

instance (word : List Char) : Decidable (Plain word) :=
  inferInstanceAs (Decidable (Text.Solid word ∧ word ≠ "$end".toList))

namespace Declaration

def opening (scope : List Char) : List (List Char) :=
  ["$scope".toList, "module".toList, scope, "$end".toList]

def closing : List (List Char) :=
  ["$upscope".toList, "$end".toList]

def statement (declaration : Declaration) : List (List Char) :=
  ["$var".toList, declaration.kind, Nat.toDigits 10 declaration.width, declaration.identifier,
    declaration.name, "$end".toList]

def words (declaration : Declaration) : List (List Char) :=
  declaration.scopes.flatMap opening ++ declaration.statement ++
    (List.replicate declaration.scopes.length closing).flatten

structure Printable (declaration : Declaration) : Prop where
  scopes : ∀ scope ∈ declaration.scopes, Plain scope
  kind : Plain declaration.kind
  width : declaration.width < 1 <<< 32
  identifier : Plain declaration.identifier
  name : Plain declaration.name

end Declaration

namespace Entry

def words : Entry → List (List Char)
  | time count => ['#' :: Nat.toDigits 10 count]
  | vector levels identifier => ['b' :: levels, identifier]
  | single level identifier => [level :: identifier]

def time? : Entry → Option Nat
  | time count => some count
  | vector _ _ | single _ _ => none

/-- Timestamps are counted in words of 64 bits, values are of at least one line, and
identifiers are words. -/
def Printable (unit : Nat) : Entry → Prop
  | time count => count * unit < wordLimit
  | vector levels identifier =>
      levels ≠ [] ∧ (∀ c ∈ levels, (Level.ofChar? c).isSome) ∧ Text.Solid identifier
  | single level identifier => (Level.ofChar? level).isSome ∧ Text.Solid identifier

instance (unit : Nat) : (entry : Entry) → Decidable (entry.Printable unit)
  | time count => inferInstanceAs (Decidable (count * unit < wordLimit))
  | vector levels identifier =>
      have := List.decidableBAll (fun c => (Level.ofChar? c).isSome = true) levels
      inferInstanceAs (Decidable (levels ≠ [] ∧ _ ∧ Text.Solid identifier))
  | single level identifier =>
      inferInstanceAs (Decidable ((Level.ofChar? level).isSome ∧ Text.Solid identifier))

/-- The changes that entries write from a time on. -/
def changes (unit : Nat) : Nat → List Entry → List Change
  | _, [] => []
  | _, time count :: rest => changes unit (count * unit) rest
  | now, vector levels identifier :: rest => ⟨now, identifier, levels⟩ :: changes unit now rest
  | now, single level identifier :: rest => ⟨now, identifier, [level]⟩ :: changes unit now rest

/-- The last of the timestamps, or the time before them. -/
def ending (unit : Nat) : Nat → List Entry → Nat
  | now, [] => now
  | _, time count :: rest => ending unit (count * unit) rest
  | now, vector _ _ :: rest | now, single _ _ :: rest => ending unit now rest

end Entry

namespace Document

def words (document : Document) : List (List Char) :=
  ("$timescale".toList :: Text.words document.unit ++ ["$end".toList]) ++
    document.declarations.flatMap Declaration.words ++
    ["$enddefinitions".toList, "$end".toList] ++
    document.entries.flatMap Entry.words

/-- The document can be written down with time units of `unit` femtoseconds. -/
structure Printable (document : Document) (unit : Nat) : Prop where
  timescale : TimeUnit.ofChars document.unit = .ok unit
  declarations : ∀ declaration ∈ document.declarations, declaration.Printable
  entries : ∀ entry ∈ document.entries, entry.Printable unit
  ordered : (document.entries.filterMap Entry.time?).Pairwise (· ≤ ·)

/-- Every variable with the changes of its identifier. -/
def waveform (document : Document) (unit : Nat) : Waveform where
  fsPerUnit := unit
  signals := document.declarations.map fun declaration =>
    { name := String.ofList (['.'].intercalate (declaration.scopes ++ [declaration.name]))
      width := declaration.width
      history := historyOf (Entry.changes unit 0 document.entries) declaration.identifier
        declaration.width }
  endTime := Entry.ending unit 0 document.entries

end Document

theorem solid_digits (number : Nat) : Text.Solid (Nat.toDigits 10 number) :=
  ⟨Nat.toDigits_ne_nil, Text.decimal_solid _ number (Text.digits_decimal number)⟩

theorem solid_cons (c : Char) (rest : List Char) (first : Text.isBlank c = false)
    (others : ∀ c ∈ rest, Text.isBlank c = false) : Text.Solid (c :: rest) := by
  refine ⟨List.cons_ne_nil c rest, ?_⟩
  intro other member
  rcases List.mem_cons.mp member with rfl | later
  · exact first
  · exact others other later

def levelCharacters : List Char :=
  ['0', 'l', 'L', '1', 'h', 'H', 'x', 'X', 'u', 'U', 'w', 'W', '-', 'z', 'Z']

theorem level_character (c : Char) (level : (Level.ofChar? c).isSome) : c ∈ levelCharacters := by
  by_contra other
  simp only [levelCharacters, List.mem_cons, List.not_mem_nil, or_false, not_or] at other
  simp [Level.ofChar?, other] at level

theorem level_solid (c : Char) (level : (Level.ofChar? c).isSome) : Text.isBlank c = false := by
  have all : (levelCharacters.all fun c => !Text.isBlank c) = true := by decide
  simpa using List.all_eq_true.mp all c (level_character c level)

theorem Declaration.words_solid (declaration : Declaration) (printable : declaration.Printable) :
    ∀ word ∈ declaration.words, Text.Solid word := by
  intro word member
  simp only [words, List.mem_append, List.mem_flatMap, List.mem_flatten, List.mem_replicate,
    statement, opening, closing, List.mem_cons, List.not_mem_nil, or_false] at member
  rcases member with (⟨scope, inside, rfl | rfl | rfl | rfl⟩ | member) | ⟨_, ⟨_, rfl⟩, member⟩
  · decide
  · decide
  · exact (printable.scopes word inside).1
  · decide
  · rcases member with rfl | rfl | rfl | rfl | rfl | rfl
    · decide
    · exact printable.kind.1
    · exact solid_digits declaration.width
    · exact printable.identifier.1
    · exact printable.name.1
    · decide
  · simp only [List.mem_cons, List.not_mem_nil, or_false] at member
    rcases member with rfl | rfl
    · decide
    · decide

theorem Entry.words_solid (unit : Nat) (entry : Entry) (printable : entry.Printable unit) :
    ∀ word ∈ entry.words, Text.Solid word := by
  intro word member
  cases entry with
  | time count =>
      obtain rfl := List.mem_singleton.mp member
      exact solid_cons _ _ (by decide) (solid_digits count).2
  | vector levels identifier =>
      obtain ⟨_, valid, solid⟩ := printable
      simp only [words, List.mem_cons, List.not_mem_nil, or_false] at member
      rcases member with rfl | rfl
      · exact solid_cons _ _ (by decide) fun c inside => level_solid c (valid c inside)
      · exact solid
  | single level identifier =>
      obtain ⟨valid, solid⟩ := printable
      obtain rfl := List.mem_singleton.mp member
      exact solid_cons _ _ (level_solid level valid) solid.2

theorem solid_words (text : List Char) : ∀ word ∈ Text.words text, Text.Solid word := by
  intro word member
  have nonempty : word ≠ [] := by
    rintro rfl
    simp [Text.words] at member
  refine ⟨nonempty, ?_⟩
  intro c inside
  have kept : c ∈ (Text.words text).flatten := List.mem_flatten.mpr ⟨word, member, inside⟩
  rw [Text.words_flatten, Text.solidPart, List.mem_filter] at kept
  simpa using kept.2

theorem Document.words_solid (document : Document) (unit : Nat)
    (printable : document.Printable unit) : ∀ word ∈ document.words, Text.Solid word := by
  intro word member
  simp only [words, List.mem_append, List.mem_cons, List.not_mem_nil, or_false,
    List.mem_flatMap] at member
  rcases member with ((((rfl | scale) | rfl) | ⟨declaration, inside, member⟩) | rfl | rfl) |
    ⟨entry, inside, member⟩
  · decide
  · exact solid_words _ word scale
  · decide
  · exact declaration.words_solid (printable.declarations declaration inside) word member
  · decide
  · decide
  · exact entry.words_solid unit (printable.entries entry inside) word member

end CoreBench.Waveform
