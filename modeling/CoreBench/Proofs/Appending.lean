import CoreBench.Config.Settings
import CoreBench.Proofs.Accounting
import CoreBench.Proofs.Lines
import CoreBench.Proofs.Spelling

/-!
Adding a directive to a bench. An action that a core can take may be written down behind a
bench without aliases: the bench is read with one more command, which is this action at the
instruction that the text before has reached.
-/

namespace CoreBench

theorem Action.Spelled.named {action : Action} {kind content : List Char}
    (spelled : action.Spelled kind content) : kind ∈ Statement.runtimeKinds := by
  cases spelled with
  | finish => decide
  | compare named => exact Statement.compares_at_runtime _ named
  | interrupt => decide

namespace Statement

/-- A directive as it is written: its name, its delay and its parameters. -/
def shown (word : List Char) (delay : Nat) (content : List Char) : List Char :=
  '#' :: ((word ++ '@' :: Nat.toDigits 10 delay) ++ '(' :: (content ++ [')']))

theorem runtime_small : ∀ kind ∈ runtimeKinds, kind ≠ [] ∧ kind.all Char.isLower = true := by
  decide

theorem runtime_word (word : List Char) (named : Text.lower word ∈ runtimeKinds) :
    word ≠ [] ∧ ∀ c ∈ word, c.isAlphanum = true := by
  obtain ⟨nonempty, small⟩ := runtime_small _ named
  refine ⟨?_, ?_⟩
  · rintro rfl
    exact nonempty rfl
  · intro c member
    have lower := List.all_eq_true.mp small c.toLower (List.mem_map_of_mem member)
    have letter := Text.alpha_of_to_lower c lower
    rw [Char.isAlphanum, letter, Bool.true_or]

section Shown

variable (word content : List Char) (delay : Nat) (named : Text.lower word ∈ runtimeKinds)

include named

theorem head_characters :
    ∀ c ∈ word ++ '@' :: Nat.toDigits 10 delay, c.isAlphanum = true ∨ c = '@' := by
  rw [List.forall_mem_append, List.forall_mem_cons]
  exact ⟨fun c member => .inl ((runtime_word word named).2 c member), .inr rfl,
    fun c member => .inl (Text.decimal_digits_alphanum delay c member)⟩

theorem head_absent (sep : Char) (unlettered : sep.isAlphanum = false) (other : sep ≠ '@') :
    sep ∉ word ++ '@' :: Nat.toDigits 10 delay := by
  intro member
  rcases head_characters word delay named sep member with letter | sign
  · exact Text.ne_of_alphanum sep sep letter unlettered rfl
  · exact other sign

theorem head_headed :
    Headed (Text.trim (word ++ '@' :: Nat.toDigits 10 delay)) word (Nat.toDigits 10 delay) := by
  obtain ⟨nonempty, letters⟩ := runtime_word word named
  have digits := Text.decimal_solid _ delay (Text.digits_decimal delay)
  have solid : ∀ c ∈ word ++ '@' :: Nat.toDigits 10 delay, Text.isBlank c = false := by
    intro c member
    rcases head_characters word delay named c member with letter | rfl
    · exact Text.alphanum_solid c letter
    · decide
  have line := Text.decimal_not_mem _ delay '\n' (Text.digits_decimal delay) (by decide)
  have headed := @Headed.delayed word [] (Nat.toDigits 10 delay) nonempty
    (fun c member => Text.isWord_of_isAlphanum c (letters c member)) (by simp) line
  rwa [List.nil_append, Text.trim_solid _ digits, ← Text.trim_solid _ solid] at headed

theorem written_shown (short : delay < 1 <<< 32) :
    Written (shown word delay content)
      (.directive (Text.lower word) delay (Text.trim content)) := by
  have single : (word ++ '@' :: Nat.toDigits 10 delay).head? ≠ some '#' := fun first =>
    head_absent word delay named '#' (by decide) (by decide) (List.mem_of_head? first)
  have unsigned := Text.unsigned_digits 32 delay short
  exact .directive single (head_absent word delay named '(' (by decide) (by decide))
    List.not_mem_nil (head_headed word delay named) (.inr unsigned)

theorem shown_absent (sep : Char) (separator : Separator sep) (outside : sep ∉ content) :
    sep ∉ shown word delay content := by
  have head := head_absent word delay named sep separator.unlettered
    (separator.ne sep '@' (by decide))
  intro member
  rcases List.mem_cons.mp member with hash | member
  · exact separator.ne sep '#' (by decide) hash
  rcases List.mem_append.mp member with front | member
  · exact head front
  rcases List.mem_cons.mp member with opening | member
  · exact separator.ne sep '(' (by decide) opening
  rcases List.mem_append.mp member with inside | closing
  · exact outside inside
  · exact separator.ne sep ')' (by decide) (List.mem_singleton.mp closing)

/-- Written on a line, a directive is one statement. -/
theorem of_line_shown (unsplit : '$' ∉ content) :
    ofLine (shown word delay content) = [shown word delay content] := by
  have trimmed : Text.trim (shown word delay content) = shown word delay content := by
    apply Text.trim_eq_self
    · intro c first
      cases first
      decide
    · intro c last
      have closing : (shown word delay content).getLast? = some ')' := by
        simp [shown, List.getLast?_cons, List.getLast?_append]
      rw [closing] at last
      cases last
      decide
  have whole := List.splitOn_eq_singleton
    (shown_absent word content delay named '$' .dollar unsplit)
  rw [ofLine, trimmed, whole, List.map_singleton, trimmed]
  rfl

end Shown

end Statement

namespace Bench

/-- The number of the instruction that the entries reach. -/
theorem Draft.From.reached (arch : Arch) (entries : List Entry) (draft : Draft)
    (held : From arch entries draft) (started : draft.bench.instructions ≠ []) :
    ∃ address : Nat, draft.counter = address ∧
      address + 1 = draft.bench.instructions.length +
        (entries.map fun entry => entry.form.skipped).sum := by
  have count : entries.countP (fun entry => entry.form = .instruction) =
      draft.bench.instructions.length := by
    rw [held.accounts.instructions, Entry.texts_length]
  have present := List.length_pos_iff.mpr started
  have counter := held.counter
  rw [Entry.reach, count] at counter
  refine ⟨draft.bench.instructions.length +
    (entries.map fun entry => entry.form.skipped).sum - 1, ?_, ?_⟩
  · omega
  · omega

/-- A directive on a line of its own behind a bench is read as one more command, at the
number of instructions and of skipped ones before it, less one. Register counts are words. -/
theorem parse_with_directive (config : Config) (text : String) (bench : Bench) (action : Action)
    (word before content after : List Char) (delay : Nat) (usable : config.Usable)
    (words : ∀ file, config.arch.count file ≤ wordLimit)
    (read : parse config.arch text = .ok bench) (started : bench.instructions ≠ [])
    (unnamed : bench.aliases.size = 0) (within : action.Within config.arch)
    (spelled : action.Spelled (Text.lower word) content) (short : delay < 1 <<< 32)
    (starts : before ∈ Statement.lineEnds) (ends : after ∈ Statement.lineEnds)
    (fresh : (text.toList ++ before).getLast? = some '\n') :
    ∃ entries address, Listing text.toList entries ∧
      address + 1 =
        bench.instructions.length + (entries.map fun entry => entry.form.skipped).sum ∧
      parse config.arch
          (text ++ String.ofList (before ++ (Statement.shown word delay content ++ after))) =
        .ok { bench with
          commands := bench.commands ++
            [⟨action, address, delay, String.ofList (Text.trim content),
              (text.toList ++ before).count '\n' + 1⟩] } := by
  obtain ⟨draft, ran, rfl⟩ := (of_statements_ok_iff config.arch _ bench).mp read
  obtain ⟨entries, pieces, written, held⟩ := Draft.from_run config.arch _ [] {} draft
    (Draft.from_nothing config.arch) ran
  rw [List.nil_append] at held
  obtain ⟨address, reached, place⟩ := held.reached config.arch entries draft started
  refine ⟨entries, address, ⟨by rw [pieces, Listing.of_text], written⟩, place, ?_⟩
  have named := spelled.named
  have unsplit := action.spelled_absent _ content '$' spelled .dollar
  have single := action.spelled_absent _ content '\n' spelled .line
  have statements := Statement.of_text_add_line text.toList before
    (Statement.shown word delay content) after starts fresh
    (Statement.shown_absent word content delay named '\n' .line single) ends
  rw [Statement.of_line_shown word content delay named unsplit, List.map_singleton,
    List.append_assoc] at statements
  have reads := action.reads_spelled config.arch _ content usable.wordSize_le usable.irqLines_le
    words within spelled
  have none : draft.bench.aliases = {} :=
    congrArg AliasTable.mk (List.length_eq_zero_iff.mp unnamed)
  rw [← none] at reads
  have stepped := (Draft.step_ok_iff config.arch draft _ ((text.toList ++ before).count '\n' + 1)
    (Statement.shown word delay content)).mpr
      ⟨_, Statement.written_shown word content delay named short, .command delay reads reached⟩
  have run := Draft.run_append config.arch _ _ draft _ ran stepped
  rw [← statements] at run
  rw [parse, String.toList_append, String.toList_ofList]
  exact (of_statements_ok_iff config.arch _ _).mpr ⟨_, run, rfl⟩

/-- One instruction and three that are skipped. -/
def skippingText : String :=
  "nop\n#skip@3()"

theorem test_is_read_back :
    let comparison : Comparison := ⟨.register .special ⟨1, 7, 0⟩, .different, .constant 0x2a⟩
    parse {} skippingText = .ok { instructions := ["nop"] } ∧
      ∃ entries address, Listing skippingText.toList entries ∧
        address + 1 = 1 + (entries.map fun entry => entry.form.skipped).sum ∧
        parse {} (skippingText ++ "\n#Test@2( s1[7:0]!=  0x2a)\n") =
          .ok { instructions := ["nop"]
                commands := [⟨.compare comparison, address, 2, "s1[7:0]!=  0x2a", 3⟩] } := by
  intro comparison
  have usable : Config.Usable {} := by constructor <;> decide
  have words : ∀ file, ({} : Config).arch.count file ≤ wordLimit := by
    rintro (_ | _) <;> decide
  have read : parse {} skippingText = .ok { instructions := ["nop"] } := by decide +kernel
  have spelled : Action.Spelled (.compare comparison) (Text.lower "Test".toList)
      ([' '] ++ (comparison.shown [] [' ', ' '] ++ [])) :=
    .compare (.inr rfl) ⟨Text.Gap.spaces 1, Text.Gap.spaces 0⟩
      ⟨Text.Gap.spaces 0, Text.Gap.spaces 2⟩
  obtain ⟨entries, address, listing, place, more⟩ :=
    parse_with_directive {} skippingText _ (.compare comparison) "Test".toList ['\n'] _ ['\n'] 2
      usable words read (by decide) rfl (by decide) spelled (by decide) (by decide) (by decide)
      (by decide +kernel)
  refine ⟨read, entries, address, listing, place, ?_⟩
  have line : skippingText ++ "\n#Test@2( s1[7:0]!=  0x2a)\n" = skippingText ++ String.ofList
      (['\n'] ++ (Statement.shown "Test".toList 2
        ([' '] ++ (comparison.shown [] [' ', ' '] ++ [])) ++ ['\n'])) := by decide +kernel
  have parameters : String.ofList (Text.trim ([' '] ++ (comparison.shown [] [' ', ' '] ++ []))) =
      "s1[7:0]!=  0x2a" := by decide +kernel
  have number : (skippingText.toList ++ ['\n']).count '\n' + 1 = 3 := by decide +kernel
  rw [parameters, number] at more
  rw [line]
  exact more

end Bench

end CoreBench
