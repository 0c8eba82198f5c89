import CoreBench.Proofs.Definitions
import CoreBench.Proofs.Drafting
import Mathlib.Algebra.Ring.Nat
import Mathlib.Data.List.Forall2

/-!
What becomes of the statements of a bench. Every statement that is read is one entry, and
what an entry leaves in the bench follows from how it is written. A command stands at the
instruction that the entries before it reach: every instruction is one step, and a skip
as many as it says.
-/

namespace CoreBench

namespace Statement

/-- The names of the directives that do something at run time. -/
def runtimeKinds : List (List Char) :=
  ["end", "assert", "test", "irq"].map String.toList

def runs : Statement → Bool
  | directive kind _ _ => kind ∈ runtimeKinds
  | todo | remark | instruction => false

def defines : Statement → Bool
  | directive kind _ _ => kind = "alias".toList
  | todo | remark | instruction => false

/-- Remarks and skips leave nothing of their own. -/
def passes : Statement → Bool
  | remark => true
  | directive kind _ _ => kind = "skip".toList
  | todo | instruction => false

def Known : Statement → Prop
  | directive kind _ _ => kind ∈ kinds
  | todo | remark | instruction => True

/-- How many instructions a statement skips. -/
def skipped : Statement → Nat
  | directive kind delay _ => if kind = "skip".toList then delay else 0
  | todo | remark | instruction => 0

theorem runtime_apart :
    ∀ kind ∈ runtimeKinds, kind ≠ "skip".toList ∧ kind ≠ "alias".toList ∧ kind ∈ kinds := by
  decide

theorem compares_at_runtime (kind : List Char)
    (named : kind = "assert".toList ∨ kind = "test".toList) : kind ∈ runtimeKinds := by
  rcases named with rfl | rfl
  · decide
  · decide

theorem runtime_skips_nothing (kind content : List Char) (delay : Nat)
    (runtime : kind ∈ runtimeKinds) : (directive kind delay content).skipped = 0 :=
  if_neg (runtime_apart kind runtime).1

theorem runtime_defines_nothing (kind content : List Char) (delay : Nat)
    (runtime : kind ∈ runtimeKinds) : (directive kind delay content).defines = false :=
  decide_eq_false (runtime_apart kind runtime).2.1

/-- A statement is one thing and no other. -/
theorem one_kind (form : Statement) (known : form.Known) :
    (if form = .instruction then 1 else 0) + (if form = .todo then 1 else 0) +
      (if form.runs then 1 else 0) + (if form.defines then 1 else 0) +
      (if form.passes then 1 else 0) = 1 := by
  cases form with
  | todo | remark | instruction => rfl
  | directive kind delay content =>
      have listed : ∀ kind ∈ kinds, (if kind ∈ runtimeKinds then 1 else 0) +
          (if kind = "alias".toList then 1 else 0) + (if kind = "skip".toList then 1 else 0) = 1 := by
        decide
      simp only [runs, defines, passes, decide_eq_true_eq, reduceCtorEq, ↓reduceIte, Nat.zero_add]
      exact listed kind known

end Statement

theorem Action.Reads.named {arch : Arch} {aliases : AliasTable} {kind content : List Char}
    {action : Action} (reads : action.Reads arch aliases kind content) :
    kind ∈ Statement.runtimeKinds := by
  cases reads with
  | finish => decide
  | compare named => exact Statement.compares_at_runtime _ named
  | interrupt => decide

namespace Bench

/-- A statement with the line that it stands on and what it is written as. -/
structure Entry where
  line : Nat
  text : List Char
  form : Statement
  deriving DecidableEq, Repr

namespace Entry

/-- The number of instructions before a place, and of those that are skipped there. -/
def reach (entries : List Entry) : Nat :=
  entries.countP (fun entry => entry.form = .instruction) +
    (entries.map fun entry => entry.form.skipped).sum

def aliasCount (entries : List Entry) : Nat :=
  entries.countP fun entry => entry.form.defines

/-- The entries that do something at run time, each with the entries before it. -/
def sites (entries : List Entry) : List (List Entry × Entry) :=
  (entries.zipIdx.filter fun place => place.1.form.runs).map fun place =>
    (entries.take place.2, place.1)

/-- The texts of the entries of one form. -/
def texts (form : Statement) (entries : List Entry) : List String :=
  (entries.filter fun entry => entry.form = form).map fun entry => String.ofList entry.text

end Entry

/-- The command of an entry: its name, delay and parameters, with the aliases that are
defined before it, at the instruction that is reached there. -/
structure Issues (arch : Arch) (table : AliasTable) (site : List Entry × Entry)
    (command : Command) : Prop where
  written : ∃ kind content aliases,
    site.2.form = .directive kind command.delay content ∧
    command.parameters = String.ofList content ∧
    aliases.aliases <+: table.aliases ∧ aliases.size = Entry.aliasCount site.1 ∧
    command.action.Reads arch aliases kind content
  address : command.address + 1 = Entry.reach site.1
  line : command.line = site.2.line

/-- The entries are all statements of a text: the pieces of every line, counted from one,
in the order of the text. -/
structure Listing (cs : List Char) (entries : List Entry) : Prop where
  pieces : (entries.map fun entry => (entry.line, entry.text)) =
    ((Text.lines cs).zipIdx 1).flatMap fun line => (Statement.ofLine line.1).map (Prod.mk line.2)
  written : ∀ entry ∈ entries, Statement.Written entry.text entry.form

/-- What the entries leave in a bench. -/
structure Accounts (arch : Arch) (entries : List Entry) (bench : Bench) : Prop where
  instructions : bench.instructions = Entry.texts .instruction entries
  todos : bench.todos = Entry.texts .todo entries
  commands : List.Forall₂ (Issues arch bench.aliases) (Entry.sites entries) bench.commands
  aliases : bench.aliases.size = Entry.aliasCount entries
  others : ∀ entry ∈ entries, entry.form.Known

namespace Entry

theorem reach_append (entries others : List Entry) :
    reach (entries ++ others) = reach entries + reach others := by
  simp only [reach, List.countP_append, List.map_append, List.sum_append]
  omega

theorem reach_single (entry : Entry) :
    reach [entry] = (if entry.form = .instruction then 1 else 0) + entry.form.skipped := by
  simp [reach]

theorem reach_take_le (entries : List Entry) (fewer more : Nat) (order : fewer ≤ more) :
    reach (entries.take fewer) ≤ reach (entries.take more) := by
  obtain ⟨rest, whole⟩ := List.take_prefix_take_left (l := entries) order
  rw [← whole, reach_append]
  exact Nat.le_add_right _ _

theorem sites_append (entries : List Entry) (entry : Entry) :
    sites (entries ++ [entry]) =
      sites entries ++ if entry.form.runs then [(entries, entry)] else [] := by
  have front : ∀ place ∈ entries.zipIdx.filter fun place => place.1.form.runs,
      ((entries ++ [entry]).take place.2, place.1) = (entries.take place.2, place.1) := by
    intro place member
    have inside := List.snd_lt_of_mem_zipIdx (List.mem_filter.mp member).1
    rw [List.take_append_of_le_length (by omega)]
  rw [sites, List.zipIdx_append, List.filter_append, List.map_append, List.map_congr_left front,
    sites]
  congr 1
  cases runs : entry.form.runs with
  | false => simp [runs]
  | true => simp [runs]

theorem texts_append (form : Statement) (entries : List Entry) (entry : Entry) :
    texts form (entries ++ [entry]) =
      texts form entries ++ if entry.form = form then [String.ofList entry.text] else [] := by
  rw [texts, List.filter_append, List.map_append, texts]
  congr 1
  by_cases same : entry.form = form
  · simp [same]
  · simp [same]

theorem alias_count_append (entries : List Entry) (entry : Entry) :
    aliasCount (entries ++ [entry]) =
      aliasCount entries + if entry.form.defines then 1 else 0 := by
  rw [aliasCount, List.countP_append, List.countP_singleton, aliasCount]

theorem texts_length (form : Statement) (entries : List Entry) :
    (texts form entries).length = entries.countP fun entry => entry.form = form := by
  rw [texts, List.length_map, List.countP_eq_length_filter]

theorem sites_length (entries : List Entry) :
    (sites entries).length = entries.countP fun entry => entry.form.runs := by
  have placed : entries.zipIdx.map Prod.fst = entries := List.zipIdx_map_fst 0 entries
  calc (sites entries).length
      = entries.zipIdx.countP fun place => place.1.form.runs := by
        rw [sites, List.length_map, List.countP_eq_length_filter]
    _ = (entries.zipIdx.map Prod.fst).countP fun entry => entry.form.runs := by
        rw [List.countP_map]
        rfl
    _ = entries.countP fun entry => entry.form.runs := by rw [placed]

/-- Every entry is an instruction, a note, a command, an alias, or passed over. -/
theorem entries_once (entries : List Entry) (known : ∀ entry ∈ entries, entry.form.Known) :
    (texts .instruction entries).length + (texts .todo entries).length + (sites entries).length +
      aliasCount entries + entries.countP (fun entry => entry.form.passes) = entries.length := by
  rw [texts_length, texts_length, sites_length, aliasCount]
  induction entries with
  | nil => rfl
  | cons entry entries ih =>
      obtain ⟨first, known⟩ := List.forall_mem_cons.mp known
      have one := entry.form.one_kind first
      have rest := ih known
      simp only [List.countP_cons, List.length_cons, decide_eq_true_eq] at *
      omega

end Entry

theorem Issues.grown {arch : Arch} {table more : AliasTable} {site : List Entry × Entry}
    {command : Command} (issued : Issues arch table site command)
    (grows : table.aliases <+: more.aliases) : Issues arch more site command := by
  obtain ⟨⟨kind, content, aliases, form, parameters, known, size, reads⟩, address, line⟩ := issued
  exact ⟨⟨kind, content, aliases, form, parameters, known.trans grows, size, reads⟩, address, line⟩

namespace Draft

section Takes

variable {arch : Arch} {draft after : Draft} {line : Nat} {cs : List Char} {form : Statement}
  (taken : draft.Takes arch line cs form after)

include taken

theorem takes_instructions : after.bench.instructions =
    draft.bench.instructions ++ if form = .instruction then [String.ofList cs] else [] := by
  cases taken with
  | instruction => simp
  | todo | remark | skip | define | command => simp

theorem takes_todos : after.bench.todos =
    draft.bench.todos ++ if form = .todo then [String.ofList cs] else [] := by
  cases taken with
  | todo => simp
  | remark | instruction | skip | define | command => simp

theorem takes_aliases : draft.bench.aliases.aliases <+: after.bench.aliases.aliases ∧
    after.bench.aliases.size = draft.bench.aliases.size + if form.defines then 1 else 0 := by
  cases taken with
  | define _ defined =>
      obtain ⟨_, _, rfl⟩ := (AliasTable.define_ok_iff _ _ _ _).mp defined
      exact ⟨List.prefix_append _ _, by simp [Statement.defines, AliasTable.size]⟩
  | todo | remark | instruction | skip => exact ⟨List.prefix_rfl, by simp [Statement.defines]⟩
  | @command kind content _ _ delay reads =>
      have none := Statement.runtime_defines_nothing kind content delay reads.named
      exact ⟨List.prefix_rfl, by rw [none]; rfl⟩

theorem takes_counter : after.counter =
    draft.counter + ((if form = .instruction then 1 else 0) + form.skipped : Nat) := by
  cases taken with
  | instruction => simp [Statement.skipped]
  | skip => simp [Statement.skipped]
  | todo | remark | define => simp [Statement.skipped]
  | @command kind content _ _ delay reads =>
      have none := Statement.runtime_skips_nothing kind content delay reads.named
      simp [none]

theorem takes_commands :
    form.runs = false ∧ after.bench.commands = draft.bench.commands ∨
      form.runs = true ∧ ∃ kind content, ∃ command : Command,
        form = .directive kind command.delay content ∧
        command.parameters = String.ofList content ∧ command.line = line ∧
        draft.counter = command.address ∧
        command.action.Reads arch draft.bench.aliases kind content ∧
        after.bench.commands = draft.bench.commands ++ [command] := by
  cases taken with
  | command delay reads reached =>
      exact .inr ⟨decide_eq_true reads.named, _, _, _, rfl, rfl, rfl, reached, reads, rfl⟩
  | todo | remark | instruction => exact .inl ⟨rfl, rfl⟩
  | skip | define => exact .inl ⟨rfl, rfl⟩

theorem takes_known : form.Known := by
  cases taken with
  | todo | remark | instruction => trivial
  | skip => exact (by decide : "skip".toList ∈ Statement.kinds)
  | define => exact (by decide : "alias".toList ∈ Statement.kinds)
  | command _ reads => exact (Statement.runtime_apart _ reads.named).2.2

end Takes

/-- A draft that has come from the entries. -/
structure From (arch : Arch) (entries : List Entry) (draft : Draft) : Prop where
  accounts : Accounts arch entries draft.bench
  counter : draft.counter + 1 = Entry.reach entries

theorem from_nothing (arch : Arch) : From arch [] {} where
  accounts :=
    { instructions := rfl
      todos := rfl
      commands := .nil
      aliases := rfl
      others := by simp }
  counter := rfl

/-- A statement that is taken leaves what its entry accounts for. -/
theorem from_take (arch : Arch) (entries : List Entry) (draft after : Draft) (line : Nat)
    (cs : List Char) (form : Statement) (held : From arch entries draft)
    (taken : draft.Takes arch line cs form after) :
    From arch (entries ++ [⟨line, cs, form⟩]) after := by
  obtain ⟨grows, size⟩ := takes_aliases taken
  have earlier : List.Forall₂ (Issues arch after.bench.aliases) (Entry.sites entries)
      draft.bench.commands := held.accounts.commands.imp fun _ _ issued => issued.grown grows
  refine ⟨⟨?_, ?_, ?_, ?_, ?_⟩, ?_⟩
  · rw [takes_instructions taken, held.accounts.instructions,
      Entry.texts_append]
  · rw [takes_todos taken, held.accounts.todos, Entry.texts_append]
  · rw [Entry.sites_append]
    rcases takes_commands taken with
      ⟨still, same⟩ | ⟨runs, kind, content, command, written, parameters, place, reached, reads, more⟩
    · simpa [still, same] using earlier
    · rw [more, if_pos runs]
      refine List.rel_append earlier (.cons ⟨?_, ?_, place⟩ .nil)
      · exact ⟨kind, content, draft.bench.aliases, written, parameters, grows,
          held.accounts.aliases, reads⟩
      · have counter := held.counter
        rw [reached] at counter
        exact_mod_cast counter
  · rw [size, held.accounts.aliases, Entry.alias_count_append]
  · rw [List.forall_mem_append]
    refine ⟨held.accounts.others, ?_⟩
    rintro _ member
    obtain rfl := List.mem_singleton.mp member
    exact takes_known taken
  · have counter := held.counter
    rw [takes_counter taken, Entry.reach_append, Entry.reach_single]
    push_cast
    omega

/-- Reading statements from a draft on adds their entries. -/
theorem from_run (arch : Arch) (statements : List (Nat × List Char)) (entries : List Entry)
    (draft after : Draft) (held : From arch entries draft)
    (ran : statements.foldlM (step arch) draft = .ok after) :
    ∃ added : List Entry, (added.map fun entry => (entry.line, entry.text)) = statements ∧
      (∀ entry ∈ added, Statement.Written entry.text entry.form) ∧
      From arch (entries ++ added) after := by
  induction statements generalizing entries draft with
  | nil =>
      cases ran
      exact ⟨[], rfl, by simp, by simpa using held⟩
  | cons statement statements ih =>
      obtain ⟨line, cs⟩ := statement
      rw [List.foldlM_cons] at ran
      cases stepped : draft.step arch (line, cs) with
      | error error =>
          rw [stepped] at ran
          cases ran
      | ok middle =>
          rw [stepped] at ran
          obtain ⟨form, written, taken⟩ := (step_ok_iff arch draft middle line cs).mp stepped
          have first := from_take arch entries draft middle line cs form held taken
          obtain ⟨added, pieces, forms, last⟩ := ih _ middle first ran
          refine ⟨⟨line, cs, form⟩ :: added, ?_, ?_, ?_⟩
          · rw [List.map_cons, pieces]
          · exact List.forall_mem_cons.mpr ⟨written, forms⟩
          · simpa using last

end Draft

theorem pairwise_zip_idx {α : Type} (items : List α) (start : Nat) :
    (items.zipIdx start).Pairwise fun earlier later => earlier.2 < later.2 := by
  have places := List.zipIdx_map_snd start items
  rw [← List.pairwise_map (f := Prod.snd) (R := (· < ·)), places]
  exact List.pairwise_lt_range'

theorem Listing.of_text (cs : List Char) :
    Statement.ofText cs =
      ((Text.lines cs).zipIdx 1).flatMap fun line => (Statement.ofLine line.1).map (Prod.mk line.2) := by
  have from_line (number : Nat) (lines : List (List Char)) : Statement.ofLines number lines =
      (lines.zipIdx number).flatMap fun line => (Statement.ofLine line.1).map (Prod.mk line.2) := by
    induction lines generalizing number with
    | nil => rfl
    | cons line lines ih => rw [Statement.ofLines, ih, List.zipIdx_cons, List.flatMap_cons]
  exact from_line 1 (Text.lines cs)

/-- The lines of a listing do not go back. -/
theorem Listing.ordered (cs : List Char) (entries : List Entry) (listing : Listing cs entries) :
    entries.Pairwise fun earlier later => earlier.line ≤ later.line := by
  have lines : (entries.map fun entry => (entry.line, entry.text)).Pairwise
      fun earlier later => earlier.1 ≤ later.1 := by
    rw [listing.pieces, List.pairwise_flatMap]
    constructor
    · intro line _
      rw [List.pairwise_map]
      exact List.pairwise_of_forall fun _ _ => Nat.le_refl line.2
    · refine (pairwise_zip_idx _ 1).imp ?_
      intro earlier later order one first other second
      obtain ⟨_, _, rfl⟩ := List.mem_map.mp first
      obtain ⟨_, _, rfl⟩ := List.mem_map.mp second
      exact Nat.le_of_lt order
  rwa [List.pairwise_map] at lines

theorem Entry.sites_ordered (entries : List Entry)
    (ordered : entries.Pairwise fun earlier later => earlier.line ≤ later.line) :
    (sites entries).Pairwise fun earlier later =>
      reach earlier.1 ≤ reach later.1 ∧ earlier.2.line ≤ later.2.line := by
  have lines : entries.zipIdx.Pairwise fun earlier later => earlier.1.line ≤ later.1.line := by
    rw [← List.zipIdx_map_fst 0 entries, List.pairwise_map] at ordered
    exact ordered
  rw [sites, List.pairwise_map]
  refine List.Pairwise.filter _ (((pairwise_zip_idx entries 0).and lines).imp ?_)
  intro earlier later both
  exact ⟨reach_take_le entries _ _ (Nat.le_of_lt both.1), both.2⟩

theorem Accounts.ordered (arch : Arch) (entries : List Entry) (bench : Bench)
    (accounts : Accounts arch entries bench)
    (ordered : entries.Pairwise fun earlier later => earlier.line ≤ later.line) :
    bench.commands.Pairwise fun earlier later =>
      earlier.address ≤ later.address ∧ earlier.line ≤ later.line := by
  have sites := Entry.sites_ordered entries ordered
  have placed : ((Entry.sites entries).map fun site => (Entry.reach site.1, site.2.line)) =
      bench.commands.map fun command => (command.address + 1, command.line) := by
    rw [← List.forall₂_eq_eq_eq, List.forall₂_map_left_iff, List.forall₂_map_right_iff]
    refine accounts.commands.imp ?_
    intro site command issued
    rw [issued.address, issued.line]
  have pairs : ((Entry.sites entries).map fun site => (Entry.reach site.1, site.2.line)).Pairwise
      fun earlier later => earlier.1 ≤ later.1 ∧ earlier.2 ≤ later.2 := List.pairwise_map.mpr sites
  rw [placed, List.pairwise_map] at pairs
  exact pairs.imp fun both => ⟨Nat.le_of_succ_le_succ both.1, both.2⟩

end Bench

theorem Statement.delays_lt (text : List Char) (count : Nat) (delays : Delays text count) :
    count < 1 <<< 32 := by
  rcases delays with ⟨_, rfl⟩ | read
  · decide
  · rw [Text.unsigned?.eq_def] at read
    split at read
    next => exact ((Text.within_eq_some_iff _ _ _).mp read).2
    next => exact ((Text.within_eq_some_iff _ _ _).mp read).2

theorem Statement.skipped_lt (cs : List Char) (form : Statement) (written : Written cs form) :
    form.skipped < 1 <<< 32 := by
  cases written with
  | todo | remark | bare | instruction => decide
  | directive _ _ _ _ delays =>
      rw [skipped]
      split
      next => exact delays_lt _ _ delays
      next => decide

namespace Bench

/-- An entry is at most as far from the one before as a delay can say. -/
theorem Entry.reach_le (entries : List Entry)
    (written : ∀ entry ∈ entries, Statement.Written entry.text entry.form) :
    reach entries ≤ entries.length * (1 <<< 32 - 1) := by
  induction entries with
  | nil => exact Nat.le_refl 0
  | cons entry entries ih =>
      obtain ⟨first, written⟩ := List.forall_mem_cons.mp written
      have step : reach [entry] ≤ 1 <<< 32 - 1 := by
        have bound := Statement.skipped_lt entry.text entry.form first
        rw [reach_single]
        split
        next same =>
          rw [same]
          decide
        next => omega
      have rest := ih written
      have whole := reach_append [entry] entries
      rw [List.singleton_append] at whole
      rw [whole, List.length_cons, Nat.succ_mul]
      omega

/-- Every statement of a bench that is read is accounted for once. Commands stand at the
instruction reached before them, so they keep the order of the text. -/
theorem parse_accounts (arch : Arch) (text : String) (bench : Bench)
    (few : (Statement.ofText text.toList).length < 2 ^ 31) (read : parse arch text = .ok bench) :
    ∃ entries, Listing text.toList entries ∧ Accounts arch entries bench ∧
      bench.instructions.length + bench.todos.length + bench.commands.length +
        bench.aliases.size + entries.countP (fun entry => entry.form.passes) = entries.length ∧
      bench.commands.Pairwise (fun earlier later =>
        earlier.address ≤ later.address ∧ earlier.line ≤ later.line) ∧
      ∀ place, Entry.reach (entries.take place) < 2 ^ 63 := by
  obtain ⟨draft, ran, rfl⟩ := (of_statements_ok_iff arch _ bench).mp read
  obtain ⟨entries, pieces, written, held⟩ := Draft.from_run arch _ [] {} draft
    (Draft.from_nothing arch) ran
  rw [List.nil_append] at held
  have listing : Listing text.toList entries := ⟨by rw [pieces, Listing.of_text], written⟩
  have accounts := held.accounts
  refine ⟨entries, listing, accounts, ?_, accounts.ordered arch entries draft.bench
    (listing.ordered _ _), ?_⟩
  · rw [← Entry.entries_once entries accounts.others, accounts.instructions, accounts.todos,
      accounts.aliases, ← accounts.commands.length_eq]
  · intro place
    have front : ∀ entry ∈ entries.take place, Statement.Written entry.text entry.form :=
      fun entry member => written entry (List.mem_of_mem_take member)
    have far := Entry.reach_le (entries.take place) front
    have size : entries.length = (Statement.ofText text.toList).length := by
      rw [← pieces, List.length_map]
    have fewer : (entries.take place).length ≤ entries.length := List.length_take_le' ..
    calc Entry.reach (entries.take place)
        ≤ (entries.take place).length * (1 <<< 32 - 1) := far
      _ ≤ 2 ^ 31 * (1 <<< 32 - 1) := Nat.mul_le_mul_right _ (by omega)
      _ < 2 ^ 63 := by decide

/-- Every kind of statement, with two skipped instructions before the first command. -/
def mixedText : String :=
  "li r1, 1 $ #Skip@2()\n## a remark\n#alias(a=r1)\n##todo later\n #assert(a == 1)\nnop$#end@3()"

def mixedBench : Bench where
  instructions := ["li r1, 1", "nop"]
  commands :=
    [⟨.compare ⟨.register .general ⟨1, 31, 0⟩, .equal, .constant 1⟩, 2, 1, "a == 1", 5⟩,
      ⟨.finish, 3, 3, "", 6⟩]
  aliases := ⟨[⟨"a", "r1", []⟩]⟩
  todos := ["##todo later"]

theorem mixed_accounts :
    (Statement.ofText mixedText.toList).length < 2 ^ 31 ∧ parse {} mixedText = .ok mixedBench ∧
      ∃ entries, Listing mixedText.toList entries ∧ Accounts {} entries mixedBench := by
  have few : (Statement.ofText mixedText.toList).length < 2 ^ 31 := by decide +kernel
  have read : parse {} mixedText = .ok mixedBench := by decide +kernel
  obtain ⟨entries, listing, accounts, _⟩ := parse_accounts {} mixedText mixedBench few read
  exact ⟨few, read, entries, listing, accounts⟩

end Bench

end CoreBench
