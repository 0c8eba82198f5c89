import CoreBench.Proofs.Definitions
import Mathlib.Data.List.Nodup

/-!
What becomes of a table of aliases under any definitions. One that is refused changes nothing and
one that is accepted adds an entry, so a name that stands for an alias stands for it ever after,
and every entry is as a definition can be written.
-/

namespace CoreBench

/-- What reading a definition ensures of an alias. -/
structure Alias.WellFormed (held : Alias) : Prop where
  name : IsName held.name
  expression : IsExpression held.expression
  ranges : ∀ pair ∈ held.ranges, Labels.Allowed pair

theorem Alias.Written.well_formed {cs : List Char} {fresh : Alias} (written : Written cs fresh) :
    fresh.WellFormed := by
  cases written with
  | plain word term => exact ⟨word, term, List.forall_mem_nil _⟩
  | labelled word term _ _ _ allowed =>
      refine ⟨word, term, fun pair member => ?_⟩
      rcases Labels.mem_insert_all [] _ pair member with given | none
      · exact allowed pair given
      · exact absurd none List.not_mem_nil

namespace AliasTable

/-- Every entry is as a definition can be written, and no name has two. -/
structure Sound (table : AliasTable) : Prop where
  entries : ∀ held ∈ table.aliases, held.WellFormed
  distinct : (table.aliases.map Alias.name).Nodup

theorem get_some (table : AliasTable) (name : String) (held : Alias)
    (known : table.get? name = some held) : held ∈ table.aliases ∧ held.name = name := by
  have named := List.find?_some known
  exact ⟨List.mem_of_find?_eq_some known, of_decide_eq_true named⟩

theorem get_none_iff (table : AliasTable) (name : String) :
    table.get? name = none ↔ ∀ held ∈ table.aliases, held.name ≠ name := by
  simp [get?, List.find?_eq_none]

/-- A name stands for the entry that has it. -/
theorem Sound.get_iff {table : AliasTable} (sound : table.Sound) (name : String) (held : Alias) :
    table.get? name = some held ↔ held ∈ table.aliases ∧ held.name = name := by
  constructor
  · exact get_some table name held
  · rintro ⟨member, rfl⟩
    cases found : table.get? held.name with
    | none => exact absurd rfl ((get_none_iff table held.name).mp found held member)
    | some other =>
        obtain ⟨present, same⟩ := get_some table held.name other found
        rw [List.inj_on_of_nodup_map sound.distinct present member same]

theorem Sound.define {table grown : AliasTable} {cs : List Char} {fresh : Alias}
    (sound : table.Sound) (defined : table.define cs = .ok (fresh, grown)) : grown.Sound := by
  obtain ⟨read, free, rfl⟩ := (define_ok_iff table grown cs fresh).mp defined
  constructor
  · rw [List.forall_mem_append, List.forall_mem_singleton]
    exact ⟨sound.entries, ((Alias.of_chars_ok_iff cs fresh).mp read).well_formed⟩
  · rw [List.map_append, List.map_singleton, List.nodup_append]
    refine ⟨sound.distinct, List.nodup_singleton _, ?_⟩
    rintro name member other same rfl
    obtain ⟨held, present, rfl⟩ := List.mem_map.mp member
    exact (get_none_iff table fresh.name).mp free held present (List.mem_singleton.mp same)

/-- The tables that definitions build. -/
inductive Built : AliasTable → Prop where
  | empty : Built {}
  | define {table grown : AliasTable} {cs : List Char} {fresh : Alias} (built : Built table)
      (defined : table.define cs = .ok (fresh, grown)) : Built grown

theorem Built.sound {table : AliasTable} (built : table.Built) : table.Sound := by
  induction built with
  | empty => exact ⟨List.forall_mem_nil _, List.nodup_nil⟩
  | define _ defined ih => exact ih.define defined

/-- Gives what the name of an alias stands for; if it stands for nothing yet, the alias is
entered. -/
def enter (fresh : Alias) : StateM AliasTable Alias := fun table =>
  match table.get? fresh.name with
  | some held => (held, table)
  | none => (fresh, ⟨table.aliases ++ [fresh]⟩)

/-- A definition as it is carried out on a table in place. What an error finds done by then
stays done. -/
def defining (cs : List Char) : ExceptT AliasError (StateM AliasTable) Alias := do
  let fresh ← Alias.ofChars cs
  if ((← get).get? fresh.name).isSome then throw (.duplicate fresh.name)
  enter fresh

/-- The answer to a definition and the table after it. -/
def call (table : AliasTable) (cs : List Char) : Except AliasError Alias × AliasTable :=
  (defining cs).run.run table

def callAll (table : AliasTable) (texts : List (List Char)) : AliasTable :=
  texts.foldl (fun table cs => (table.call cs).2) table

def answers : AliasTable → List (List Char) → List (Except AliasError Alias)
  | _, [] => []
  | table, cs :: rest => (table.call cs).1 :: answers (table.call cs).2 rest

theorem call_unread (table : AliasTable) (cs : List Char) (error : AliasError)
    (unread : Alias.ofChars cs = .error error) : table.call cs = (.error error, table) := by
  rw [call, defining, unread]
  rfl

/-- Once the text is read, only the entry of its name matters. -/
theorem call_read (table : AliasTable) (cs : List Char) (fresh : Alias)
    (read : Alias.ofChars cs = .ok fresh) :
    table.call cs = StateT.run (ExceptT.run (m := StateM AliasTable)
      (if (table.get? fresh.name).isSome then throw (.duplicate fresh.name)
        else enter fresh)) table := by
  rw [call, defining, read]
  rfl

theorem call_taken (table : AliasTable) (cs : List Char) (fresh : Alias)
    (read : Alias.ofChars cs = .ok fresh) (taken : (table.get? fresh.name).isSome) :
    table.call cs = (.error (.duplicate fresh.name), table) := by
  rw [call_read table cs fresh read, if_pos taken]
  rfl

theorem call_free (table : AliasTable) (cs : List Char) (fresh : Alias)
    (read : Alias.ofChars cs = .ok fresh) (free : table.get? fresh.name = none) :
    table.call cs = (.ok fresh, ⟨table.aliases ++ [fresh]⟩) := by
  have entered : enter fresh table = (fresh, ⟨table.aliases ++ [fresh]⟩) := by
    rw [enter, free]
  rw [call_read table cs fresh read, if_neg (by simp [free])]
  exact congrArg (fun done : Alias × AliasTable => (Except.ok done.1, done.2)) entered

/-- What one call does: it is refused and changes nothing, or it adds what is written. The
definition that is read at one go has the same outcome. -/
theorem call_cases (table : AliasTable) (cs : List Char) :
    (∃ error, table.define cs = .error error ∧ table.call cs = (.error error, table)) ∨
      ∃ fresh, table.define cs = .ok (fresh, ⟨table.aliases ++ [fresh]⟩) ∧
        table.call cs = (.ok fresh, ⟨table.aliases ++ [fresh]⟩) := by
  rw [define]
  cases read : Alias.ofChars cs with
  | error error => exact .inl ⟨error, rfl, call_unread table cs error read⟩
  | ok fresh =>
      by_cases taken : (table.get? fresh.name).isSome
      · exact .inl ⟨.duplicate fresh.name, if_pos taken, call_taken table cs fresh read taken⟩
      · have free : table.get? fresh.name = none := by simpa using taken
        exact .inr ⟨fresh, if_neg taken, call_free table cs fresh read free⟩

/-- What `define` gives is the answer of the call and the table that the call leaves. -/
theorem define_of_call (table : AliasTable) (cs : List Char) :
    table.define cs = (table.call cs).1.map fun fresh => (fresh, (table.call cs).2) := by
  rcases call_cases table cs with ⟨_, defined, called⟩ | ⟨_, defined, called⟩
  · rw [defined, called]
    rfl
  · rw [defined, called]
    rfl

theorem call_ok_iff (table : AliasTable) (cs : List Char) (fresh : Alias) :
    (table.call cs).1 = .ok fresh ↔ Alias.Written cs fresh ∧ table.get? fresh.name = none := by
  rw [← Alias.of_chars_ok_iff]
  rcases call_cases table cs with ⟨error, refused, called⟩ | ⟨added, defined, called⟩
  · rw [called]
    constructor
    · rintro ⟨⟩
    · rintro ⟨read, free⟩
      rw [(define_ok_iff table _ cs fresh).mpr ⟨read, free, rfl⟩] at refused
      cases refused
  · obtain ⟨read, free, _⟩ := (define_ok_iff table _ cs added).mp defined
    rw [called, read]
    constructor
    · rintro ⟨⟩
      exact ⟨rfl, free⟩
    · rintro ⟨⟨⟩, _⟩
      rfl

theorem Built.call {table : AliasTable} (built : table.Built) (cs : List Char) :
    (table.call cs).2.Built := by
  rcases call_cases table cs with ⟨_, _, called⟩ | ⟨_, defined, called⟩
  · rw [called]
    exact built
  · rw [called]
    exact built.define defined

theorem call_keeps (table : AliasTable) (cs : List Char) (name : String) (held : Alias)
    (known : table.get? name = some held) : (table.call cs).2.get? name = some held := by
  rcases call_cases table cs with ⟨_, _, called⟩ | ⟨fresh, defined, called⟩
  · rw [called]
    exact known
  · rw [called]
    exact define_keeps table _ cs fresh defined name held known

theorem Built.call_all {table : AliasTable} (built : table.Built) (texts : List (List Char)) :
    (table.callAll texts).Built := by
  induction texts generalizing table with
  | nil => exact built
  | cons cs rest ih => exact ih (built.call cs)

theorem call_all_keeps (table : AliasTable) (texts : List (List Char)) (name : String)
    (held : Alias) (known : table.get? name = some held) :
    (table.callAll texts).get? name = some held := by
  induction texts generalizing table with
  | nil => exact known
  | cons cs rest ih => exact ih _ (call_keeps table cs name held known)

theorem call_all_append (table : AliasTable) (earlier later : List (List Char)) :
    table.callAll (earlier ++ later) = (table.callAll earlier).callAll later :=
  List.foldl_append

/-- The accepted definitions are the entries of the table, in their order. -/
theorem call_all_aliases (table : AliasTable) (texts : List (List Char)) :
    (table.callAll texts).aliases =
      table.aliases ++ (table.answers texts).filterMap Except.toOption := by
  induction texts generalizing table with
  | nil => exact (List.append_nil _).symm
  | cons cs rest ih =>
      rw [callAll, List.foldl_cons, ← callAll, ih, answers]
      rcases call_cases table cs with ⟨error, _, called⟩ | ⟨fresh, _, called⟩
      · rw [called, List.filterMap_cons_none rfl]
      · have added : (Except.ok fresh : Except AliasError Alias).toOption = some fresh := rfl
        rw [called, List.filterMap_cons_some added, List.append_assoc, List.singleton_append]

/-- Definitions only add to a table, one entry for each that is accepted. They are carried out
on the table itself, and one that is refused leaves no trace in it. -/
theorem table_only_grows (earlier later : List (List Char)) :
    (∀ cs, (callAll {} earlier).define cs = ((callAll {} earlier).call cs).1.map fun fresh =>
      (fresh, ((callAll {} earlier).call cs).2)) ∧
    (∀ cs error, ((callAll {} earlier).call cs).1 = .error error →
      ((callAll {} earlier).call cs).2 = callAll {} earlier) ∧
    (∀ cs fresh, ((callAll {} earlier).call cs).1 = .ok fresh ↔
      Alias.Written cs fresh ∧ (callAll {} earlier).get? fresh.name = none) ∧
    (∀ name held, (callAll {} earlier).get? name = some held →
      (callAll {} (earlier ++ later)).get? name = some held) ∧
    (callAll {} earlier).aliases = (answers {} earlier).filterMap Except.toOption ∧
    (callAll {} earlier).size = (answers {} earlier).countP Except.isOk ∧
    (∀ name held, (callAll {} earlier).get? name = some held ↔
      held ∈ (callAll {} earlier).aliases ∧ held.name = name) ∧
    ∀ held ∈ (callAll {} earlier).aliases, held.WellFormed := by
  have sound := (Built.empty.call_all earlier).sound
  have entries : (callAll {} earlier).aliases = (answers {} earlier).filterMap Except.toOption :=
    (call_all_aliases {} earlier).trans (List.nil_append _)
  refine ⟨define_of_call _, ?_, call_ok_iff _, ?_, entries, ?_, sound.get_iff, sound.entries⟩
  · intro cs error refused
    rcases call_cases (callAll {} earlier) cs with ⟨_, _, called⟩ | ⟨fresh, _, called⟩
    · rw [called]
    · rw [called] at refused
      cases refused
  · intro name held known
    rw [call_all_append]
    exact call_all_keeps _ later name held known
  · rw [size, entries, List.length_filterMap_eq_countP]
    congr 1
    funext answer
    cases answer with
    | error => rfl
    | ok => rfl

/-- A second definition of a name is refused, and the first one stays. -/
theorem second_foo_refused :
    (call (callAll {} ["foo=r1".toList]) "foo=r2".toList).1 = .error (.duplicate "foo") ∧
    (call (callAll {} ["foo=r1".toList]) "foo=r2".toList).2 = callAll {} ["foo=r1".toList] ∧
    (callAll {} ["foo=r1".toList]).get? "foo" = some ⟨"foo", "r1", []⟩ ∧
    (callAll {} (["foo=r1".toList] ++ ["foo=r2".toList])).get? "foo" = some ⟨"foo", "r1", []⟩ ∧
    (⟨"foo", "r1", []⟩ : Alias).WellFormed := by
  have refused : (call (callAll {} ["foo=r1".toList]) "foo=r2".toList).1 =
      .error (.duplicate "foo") := by decide +kernel
  have known : (callAll {} ["foo=r1".toList]).get? "foo" = some ⟨"foo", "r1", []⟩ := by
    decide +kernel
  obtain ⟨_, unchanged, _, keeps, _, _, found, entries⟩ :=
    table_only_grows ["foo=r1".toList] ["foo=r2".toList]
  exact ⟨refused, unchanged _ _ refused, known, keeps _ _ known,
    entries _ ((found _ _).mp known).1⟩

end AliasTable

end CoreBench
