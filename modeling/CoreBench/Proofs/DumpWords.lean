import CoreBench.Proofs.Printing

/-!
A value change dump by its words. Sections of definitions come first, up to the one that ends
them. Behind it stand timestamps, changes of one line or of several, and what is passed over:
real values, sections, and the words around a block of changes. The words of a dump divide in one
way only, so they say which changes it writes, and when.
-/

namespace CoreBench.Waveform

/-- A keyword, and the words behind it up to `$end`. -/
structure Section where
  keyword : List Char
  body : List (List Char)
  deriving DecidableEq, Repr

/-- What can stand behind the definitions. The changes of a block stand for themselves, so the
words around it are single. -/
inductive Item where
  | around (word : List Char)
  | aside (passed : Section)
  | stamp (digits : List Char)
  | vector (mark : Char) (levels identifier : List Char)
  | real (mark : Char) (value identifier : List Char)
  | scalar (level : Char) (identifier : List Char)
  deriving DecidableEq, Repr

/-- The definitions, the body of the section that ends them, and what follows. A dump may break
off in front of the identifier of a real value. -/
structure Dump where
  definitions : List Section
  closing : List (List Char)
  items : List Item
  broken : Option (List Char) := none
  deriving DecidableEq, Repr

namespace Section

def ending : List Char :=
  "$end".toList

def words (part : Section) : List (List Char) :=
  part.keyword :: (part.body ++ [ending])

structure Shaped (part : Section) : Prop where
  marked : part.keyword.head? = some '$'
  whole : ending ∉ part.body

/-- The time unit that words spell, of one femtosecond if there are none. -/
def scale? (body : List (List Char)) : Option Nat :=
  if body.flatten = [] then some 1 else (TimeUnit.ofChars body.flatten).toOption

/-- The time unit that the section sets. -/
def unit? (part : Section) : Option Nat :=
  if part.keyword = "$timescale".toList then scale? part.body else none

/-- The scopes behind the section, by those in front of it. A scope has its name behind its
kind, or stands alone. -/
def scopes (part : Section) (outer : List (List Char)) : List (List Char) :=
  if part.keyword = "$scope".toList then outer ++ (part.body[1]?.or part.body[0]?).toList
  else if part.keyword = "$upscope".toList then outer.dropLast
  else outer

/-- The variable that words declare inside some scopes. What follows its name does not count. -/
def declaration? (outer : List (List Char)) : List (List Char) → Option Declaration
  | kind :: width :: identifier :: name :: _ =>
      (Text.unsigned? 32 width).map fun count => ⟨outer, kind, count, identifier, name⟩
  | _ => none

/-- The variable that the section declares inside some scopes. -/
def declares? (part : Section) (outer : List (List Char)) : Option Declaration :=
  if part.keyword = "$var".toList then declaration? outer part.body else none

/-- A section among the definitions that does not end them. Where it sets the time unit or
declares a variable, it says which. -/
structure Defines (part : Section) : Prop extends part.Shaped where
  goesOn : part.keyword ≠ "$enddefinitions".toList
  scaled : part.keyword = "$timescale".toList → (scale? part.body).isSome = true
  declared : part.keyword = "$var".toList → (declaration? [] part.body).isSome = true

/-- What sections declare, each variable inside the scopes that are open there. -/
def declarations : List (List Char) → List Section → List Declaration
  | _, [] => []
  | outer, part :: rest => (part.declares? outer).toList ++ declarations (part.scopes outer) rest

/-- The time unit behind some sections, which is the last one that was set. -/
def unit (before : Nat) (parts : List Section) : Nat :=
  (parts.filterMap unit?).getLast?.getD before

end Section

namespace Item

/-- The words around blocks of changes, which concern none of them. -/
def aroundBlocks : List String :=
  ["$dumpvars", "$dumpall", "$dumpon", "$dumpoff", "$end"]

def words : Item → List (List Char)
  | around word => [word]
  | aside passed => passed.words
  | stamp digits => ['#' :: digits]
  | vector mark levels identifier => [mark :: levels, identifier]
  | real mark value identifier => [mark :: value, identifier]
  | scalar level identifier => [level :: identifier]

def Shaped : Item → Prop
  | around word => word ∈ aroundBlocks.map String.toList
  | aside passed => passed.Shaped ∧ passed.keyword ∉ aroundBlocks.map String.toList
  | stamp _ => True
  | vector mark _ _ => mark = 'b' ∨ mark = 'B'
  | real mark _ _ => mark = 'r' ∨ mark = 'R'
  | scalar level identifier => level ∉ ['$', '#', 'b', 'B', 'r', 'R'] ∧ identifier ≠ []

/-- The time of a timestamp, if its count is a number of 64 bits. -/
def time? (unit : Nat) : Item → Option Nat
  | stamp digits => (Text.unsigned? 64 digits).map (· * unit)
  | _ => none

/-- The time of a timestamp is a word of 64 bits. -/
def Counted (unit : Nat) (item : Item) : Prop :=
  ∀ digits, item = stamp digits → ∃ time, item.time? unit = some time ∧ time < wordLimit

/-- The changes that items write, from a time on. -/
def changesFrom (unit : Nat) : Nat → List Item → List Change
  | _, [] => []
  | now, item :: rest =>
      match item with
      | stamp _ => changesFrom unit ((item.time? unit).getD now) rest
      | vector _ levels identifier => ⟨now, identifier, levels⟩ :: changesFrom unit now rest
      | scalar level identifier => ⟨now, identifier, [level]⟩ :: changesFrom unit now rest
      | around _ | aside _ | real _ _ _ => changesFrom unit now rest

/-- The time behind items, which is that of the last timestamp. -/
def endFrom (unit now : Nat) (items : List Item) : Nat :=
  (items.filterMap (time? unit)).getLast?.getD now

end Item

namespace Dump

def words (dump : Dump) : List (List Char) :=
  dump.definitions.flatMap Section.words ++
    (Section.words ⟨"$enddefinitions".toList, dump.closing⟩ ++
      (dump.items.flatMap Item.words ++ dump.broken.toList))

def unit (dump : Dump) : Nat :=
  Section.unit 1 dump.definitions

def declarations (dump : Dump) : List Declaration :=
  Section.declarations [] dump.definitions

def changes (dump : Dump) : List Change :=
  Item.changesFrom dump.unit 0 dump.items

def endTime (dump : Dump) : Nat :=
  Item.endFrom dump.unit 0 dump.items

structure Shaped (dump : Dump) : Prop where
  definitions : ∀ part ∈ dump.definitions, part.Defines
  closing : Section.ending ∉ dump.closing
  items : ∀ item ∈ dump.items, item.Shaped
  broken : ∀ word ∈ dump.broken, word.head? = some 'r' ∨ word.head? = some 'R'

/-- The words have the shape of a dump, the times of the timestamps are words of 64 bits that do
not go back, and the changes of declared variables can be read. -/
structure Sound (dump : Dump) : Prop extends dump.Shaped where
  counted : ∀ item ∈ dump.items, item.Counted dump.unit
  ordered : (dump.items.filterMap (Item.time? dump.unit)).Pairwise (· ≤ ·)
  readable : ∀ change ∈ dump.changes,
    (∃ declaration ∈ dump.declarations, declaration.identifier = change.identifier) →
      change.Readable

end Dump

theorem Section.unit_cons (before : Nat) (part : Section) (parts : List Section) :
    unit before (part :: parts) = unit (part.unit?.getD before) parts := by
  rw [unit, unit, List.filterMap_cons]
  cases part.unit? with
  | none => rfl
  | some size =>
      rw [List.getLast?_cons, Option.getD_some]
      rfl

/-- A section ends at its first `$end`. -/
theorem Section.words_unique {one other : Section} {rest rest' : List (List Char)}
    (whole : ending ∉ one.body) (whole' : ending ∉ other.body)
    (same : one.words ++ rest = other.words ++ rest') : one = other ∧ rest = rest' := by
  obtain ⟨keyword, body⟩ := one
  obtain ⟨keyword', body'⟩ := other
  simp only [words, List.cons_append, List.append_assoc, List.nil_append, List.cons.injEq] at same
  obtain ⟨rfl, bodies⟩ := same
  obtain ⟨rfl, rfl⟩ := Text.parts_of_first ending _ _ _ _ bodies whole whole'
  exact ⟨rfl, rfl⟩

/-- The definitions end at the first section that ends them. -/
theorem Section.definitions_unique {parts parts' : List Section} {closing closing' : List (List Char)}
    {rest rest' : List (List Char)} (defines : ∀ part ∈ parts, part.Defines)
    (defines' : ∀ part ∈ parts', part.Defines) (whole : ending ∉ closing)
    (whole' : ending ∉ closing')
    (same : parts.flatMap words ++ (words ⟨"$enddefinitions".toList, closing⟩ ++ rest) =
      parts'.flatMap words ++ (words ⟨"$enddefinitions".toList, closing'⟩ ++ rest')) :
    parts = parts' ∧ closing = closing' ∧ rest = rest' := by
  induction parts generalizing parts' with
  | nil =>
      cases parts' with
      | nil =>
          obtain ⟨closed, rfl⟩ := words_unique whole whole' same
          cases closed
          exact ⟨rfl, rfl, rfl⟩
      | cons part' rest' =>
          have first := defines' part' List.mem_cons_self
          rw [List.flatMap_cons, List.append_assoc] at same
          obtain ⟨rfl, _⟩ := words_unique whole first.whole same
          exact absurd rfl first.goesOn
  | cons part parts ih =>
      have first := defines part List.mem_cons_self
      rw [List.flatMap_cons, List.append_assoc] at same
      cases parts' with
      | nil =>
          obtain ⟨rfl, _⟩ := words_unique first.whole whole' same
          exact absurd rfl first.goesOn
      | cons part' parts' =>
          have first' := defines' part' List.mem_cons_self
          rw [List.flatMap_cons, List.append_assoc] at same
          obtain ⟨rfl, later⟩ := words_unique first.whole first'.whole same
          obtain ⟨rfl, rfl, rfl⟩ := ih
            (fun other member => defines other (List.mem_cons_of_mem _ member))
            (fun other member => defines' other (List.mem_cons_of_mem _ member)) later
          exact ⟨rfl, rfl, rfl⟩

namespace Item

theorem around_marked : ∀ word ∈ aroundBlocks.map String.toList, word.head? = some '$' := by
  decide

/-- The first word of an item tells its kind, and the kind how many words it has. -/
theorem words_unique {one other : Item} {rest rest' : List (List Char)} (shaped : one.Shaped)
    (shaped' : other.Shaped) (same : one.words ++ rest = other.words ++ rest') :
    one = other ∧ rest = rest' := by
  have marked := around_marked
  cases one <;> cases other
  case aside.aside =>
      obtain ⟨rfl, rfl⟩ := Section.words_unique shaped.1.whole shaped'.1.whole same
      exact ⟨rfl, rfl⟩
  case around.aside =>
      obtain ⟨rfl, _⟩ := List.cons.inj same
      exact absurd shaped shaped'.2
  case aside.around =>
      obtain ⟨rfl, _⟩ := List.cons.inj same
      exact absurd shaped' shaped.2
  -- The other kinds begin with different characters.
  all_goals
    simp only [words, Section.words, List.cons_append, List.nil_append, List.cons.injEq] at same
    simp only [Shaped, List.mem_cons, List.not_mem_nil, or_false, not_or] at shaped shaped'
    grind [Section.Shaped]

/-- A real value at the end is in front of no identifier, so it is no item. -/
theorem words_broken {item : Item} {rest : List (List Char)} {word : List Char}
    (shaped : item.Shaped) (broken : word.head? = some 'r' ∨ word.head? = some 'R')
    (same : item.words ++ rest = [word]) : False := by
  have marked := around_marked
  cases item <;>
    simp only [words, Section.words, List.cons_append, List.nil_append, List.cons.injEq,
      Shaped, List.mem_cons, List.not_mem_nil, or_false, not_or] at same shaped <;>
    grind [Section.Shaped]

theorem items_unique {items items' : List Item} {broken broken' : Option (List Char)}
    (shaped : ∀ item ∈ items, item.Shaped) (shaped' : ∀ item ∈ items', item.Shaped)
    (real : ∀ word ∈ broken, word.head? = some 'r' ∨ word.head? = some 'R')
    (real' : ∀ word ∈ broken', word.head? = some 'r' ∨ word.head? = some 'R')
    (same : items.flatMap words ++ broken.toList = items'.flatMap words ++ broken'.toList) :
    items = items' ∧ broken = broken' := by
  induction items generalizing items' with
  | nil =>
      cases items' with
      | nil =>
          refine ⟨rfl, ?_⟩
          cases broken <;> cases broken' <;> cases same <;> rfl
      | cons item' items' =>
          rw [List.flatMap_cons, List.append_assoc] at same
          cases broken with
          | none =>
              cases item' <;> cases same
          | some word =>
              exact (words_broken (shaped' item' List.mem_cons_self) (real word rfl) same.symm).elim
  | cons item items ih =>
      have first := shaped item List.mem_cons_self
      rw [List.flatMap_cons, List.append_assoc] at same
      cases items' with
      | nil =>
          cases broken' with
          | none =>
              cases item <;> cases same
          | some word => exact (words_broken first (real' word rfl) same).elim
      | cons item' items' =>
          rw [List.flatMap_cons, List.append_assoc] at same
          obtain ⟨rfl, later⟩ := words_unique first (shaped' item' List.mem_cons_self) same
          obtain ⟨rfl, rfl⟩ := ih
            (fun other member => shaped other (List.mem_cons_of_mem _ member))
            (fun other member => shaped' other (List.mem_cons_of_mem _ member)) later
          exact ⟨rfl, rfl⟩

end Item

/-- Words are those of one dump at most. -/
theorem Dump.words_inj {one other : Dump} (shaped : one.Shaped) (shaped' : other.Shaped)
    (same : one.words = other.words) : one = other := by
  obtain ⟨definitions, closing, items, broken⟩ := one
  obtain ⟨definitions', closing', items', broken'⟩ := other
  obtain ⟨rfl, rfl, same⟩ := Section.definitions_unique shaped.definitions shaped'.definitions
    shaped.closing shaped'.closing same
  obtain ⟨rfl, rfl⟩ := Item.items_unique shaped.items shaped'.items shaped.broken shaped'.broken same
  rfl

end CoreBench.Waveform
