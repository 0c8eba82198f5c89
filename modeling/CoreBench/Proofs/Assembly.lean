import CoreBench.Proofs.Directives
import CoreBench.Proofs.LineBreaks

/-!
What the assembler is given. Every instruction stands on a line of its own, with its number in a
comment behind it. The comment has no parentheses and no sign that separates statements, so the
lines are instructions again when they are read as a bench.
-/

namespace CoreBench

namespace Statement

/-- A text that is a statement as it stands, on a line of its own. -/
structure Lone (cs : List Char) : Prop where
  neat : Text.Neat cs
  single : '\n' ∉ cs
  unsplit : '$' ∉ cs

variable {cs : List Char}

theorem Lone.of_line (lone : Lone cs) : ofLine cs = [cs] := by
  rw [of_line_eq_pieces, Text.pieces_unsplit '$' cs lone.unsplit, lone.neat.trimmed,
    if_neg lone.neat.nonempty]

theorem lone_of_line (line : List Char) (single : '\n' ∉ line) : ∀ cs ∈ ofLine line, Lone cs := by
  intro cs member
  rw [of_line_eq_pieces, Text.pieces, List.mem_filter] at member
  obtain ⟨inside, present⟩ := member
  obtain ⟨piece, part, rfl⟩ := List.mem_map.mp inside
  obtain ⟨unsplit, within⟩ := Text.split_piece '$' line piece part
  have kept := Text.trim_subset piece
  exact ⟨.of_trim (by simpa using present), fun feed => single (within (kept feed)),
    fun dollar => unsplit (kept dollar)⟩

theorem lone_of_text (text : List Char) : ∀ statement ∈ ofText text, Lone statement.2 := by
  intro statement member
  have inside := List.mem_map_of_mem (f := Prod.snd) member
  rw [of_text_eq, of_lines_texts, List.mem_flatMap] at inside
  obtain ⟨line, part, found⟩ := inside
  exact lone_of_line line (Text.split_piece '\n' text line part).1 _ found

/-- Lines that are statements are the statements of the text that they make up. -/
theorem of_text_ended (lines : List (List Char)) (lone : ∀ line ∈ lines, Lone line) :
    (ofText (Text.ended lines)).map Prod.snd = lines := by
  rw [of_text_eq, Text.split_ended lines fun line member => (lone line member).single,
    of_lines_texts, List.flatMap_append, List.flatMap_singleton, of_line_nil, List.append_nil]
  induction lines with
  | nil => rfl
  | cons line rest ih =>
      obtain ⟨first, later⟩ := List.forall_mem_cons.mp lone
      rw [List.flatMap_cons, first.of_line, ih later, List.singleton_append]

/-- The comment behind an instruction. -/
def comment (number : Nat) : List Char :=
  "   // INSTRUCTION ".toList ++ Nat.toDigits 10 number

theorem comment_head (number : Nat) : (comment number).head? = some ' ' := rfl

theorem comment_absent (number : Nat) (c : Char) (outside : c ∉ "   // INSTRUCTION ".toList)
    (other : c.isDigit = false) : c ∉ comment number := by
  intro member
  rcases List.mem_append.mp member with front | digit
  · exact outside front
  · exact Text.decimal_not_mem _ _ c (Text.digits_decimal _) other digit

theorem Lone.commented (lone : Lone cs) (number : Nat) : Lone (cs ++ comment number) := by
  have digits : Text.Neat (Nat.toDigits 10 number) :=
    .of_solid Nat.toDigits_ne_nil (Text.decimal_solid _ number (Text.digits_decimal number))
  have feed := comment_absent number '\n' (by decide) (by decide)
  have dollar := comment_absent number '$' (by decide) (by decide)
  exact ⟨lone.neat.between digits _, by simp [lone.single, feed], by simp [lone.unsplit, dollar]⟩

/-- The name at the start of a text ends in front of the comment. -/
theorem leading_name_commented (number : Nat) :
    leadingName (cs ++ comment number) = leadingName cs := by
  obtain ⟨name, tail, rfl, letters, ends⟩ :=
    Text.exists_run (fun c => Text.isAlphanumeric c || c == '_') cs
  -- Where the name is the whole text, the blank in front of the comment ends it.
  have later : ∀ c ∈ (tail ++ comment number).head?,
      (Text.isAlphanumeric c || c == '_') = false := by
    cases tail with
    | nil =>
        intro c first
        rw [List.nil_append, comment_head] at first
        cases first
        decide +kernel
    | cons c tail => exact ends
  rw [List.append_assoc, leadingName, leadingName, Text.take_run _ name _ letters later,
    Text.take_run _ name _ letters ends]

theorem unclosed_commented (number : Nat)
    (unclosed : ∀ before after, cs = before ++ '(' :: after → ')' ∉ after) :
    ∀ before after, cs ++ comment number = before ++ '(' :: after → ')' ∉ after := by
  intro before after whole
  have opening := comment_absent number '(' (by decide) (by decide)
  have closing := comment_absent number ')' (by decide) (by decide)
  rcases List.append_eq_append_iff.mp whole with ⟨middle, _, rest⟩ | ⟨middle, front, rest⟩
  · exact absurd (by simp [rest]) opening
  · cases middle with
    | nil =>
        rw [List.nil_append] at rest
        exact absurd (rest ▸ List.mem_cons_self) opening
    | cons c middle =>
        rw [List.cons_append] at rest
        obtain ⟨rfl, rfl⟩ := List.cons.inj rest
        rw [List.mem_append, not_or]
        exact ⟨unclosed before middle front, closing⟩

/-- An instruction remains one when a comment is put behind it. -/
theorem Plain.commented (plain : Plain cs) (nonempty : cs ≠ []) (number : Nat) :
    Plain (cs ++ comment number) := by
  cases plain with
  | unmarked unmarked =>
      refine .unmarked ?_
      rwa [List.head?_append_of_ne_nil _ nonempty]
  | @unnamed rest single unclosed unnamed =>
      rw [List.cons_append]
      have unclosed := unclosed_commented number unclosed
      refine .unnamed ?_ unclosed ?_
      · cases rest with
        | nil =>
            rw [List.nil_append, comment_head]
            decide
        | cons c rest =>
            rw [List.cons_append, List.head?_cons]
            rwa [List.head?_cons] at single
      · rwa [leading_name_commented]

end Statement

namespace Bench

/-- Statements that are all plain are all kept, and nothing else comes of them. -/
theorem Draft.run_plain (arch : Arch) (statements : List (Nat × List Char)) (draft : Draft)
    (plain : ∀ statement ∈ statements, Statement.Plain statement.2) :
    ∃ counter, statements.foldlM (Draft.step arch) draft = .ok {
      bench := { draft.bench with
        instructions := draft.bench.instructions ++ statements.map (String.ofList ∘ Prod.snd) }
      counter := counter } := by
  induction statements generalizing draft with
  | nil => exact ⟨draft.counter, by simp; rfl⟩
  | cons statement rest ih =>
      obtain ⟨first, later⟩ := List.forall_mem_cons.mp plain
      have stepped := (step_ok_iff arch draft _ statement.1 statement.2).mpr
        ⟨.instruction, (Statement.written_instruction_iff _).mpr first, .instruction⟩
      obtain ⟨counter, ran⟩ := ih _ later
      refine ⟨counter, ?_⟩
      rw [List.foldlM_cons, stepped]
      refine ran.trans ?_
      simp

theorem of_statements_plain (arch : Arch) (statements : List (Nat × List Char))
    (plain : ∀ statement ∈ statements, Statement.Plain statement.2) :
    ofStatements arch statements =
      .ok { instructions := statements.map (String.ofList ∘ Prod.snd) } := by
  obtain ⟨counter, ran⟩ := Draft.run_plain arch statements {} plain
  exact (of_statements_ok_iff arch statements _).mpr ⟨_, ran, by simp⟩

/-- The instructions in their order, each with its number in a comment behind it. -/
def numbered (instructions : List String) : List String :=
  instructions.mapIdx fun number instruction => s!"{instruction}   // INSTRUCTION {number}"

theorem numbered_lines (instructions : List String) :
    (numbered instructions).map String.toList =
      instructions.mapIdx fun number instruction =>
        instruction.toList ++ Statement.comment number := by
  simp only [numbered, List.mapIdx_eq_zipIdx_map, List.map_map]
  congr 1
  funext entry
  change (entry.1 ++ "   // INSTRUCTION " ++ Nat.repr entry.2).toList = _
  rw [String.toList_append, String.toList_append, List.append_assoc, Nat.toList_repr]
  rfl

theorem assembly_ended (bench : Bench) :
    bench.assembly.toList = Text.ended ((numbered bench.instructions).map String.toList) := by
  simp only [assembly, String.toList_join, Text.ended, numbered, List.mapIdx_eq_zipIdx_map,
    List.map_map, List.flatMap_map]
  congr 1
  funext entry
  simp [assemblyLine, toString]

/-- A line for the assembler is a statement on its own, and an instruction. -/
theorem numbered_plain (text : String) :
    ∀ line ∈ (numbered (plainTexts (Statement.ofText text.toList))).map String.toList,
      Statement.Lone line ∧ Statement.Plain line := by
  intro line member
  rw [numbered_lines, List.mem_mapIdx] at member
  obtain ⟨number, inside, rfl⟩ := member
  have instruction := List.getElem_mem inside
  generalize (plainTexts (Statement.ofText text.toList))[number] = written at instruction
  simp only [plainTexts, List.mem_map, List.mem_filter, decide_eq_true_eq] at instruction
  obtain ⟨statement, ⟨found, plain⟩, rfl⟩ := instruction
  have lone := Statement.lone_of_text text.toList statement found
  rw [String.toList_ofList]
  exact ⟨lone.commented number, plain.commented lone.neat.nonempty number⟩

/-- The assembler gets a line for each instruction of the source, and as a bench these lines are
instructions and nothing else. -/
theorem parse_assembly (arch other : Arch) (text : String) (bench : Bench)
    (parsed : parse arch text = .ok bench) :
    bench.instructions = plainTexts (Statement.ofText text.toList) ∧
    Text.lines bench.assembly.toList = (numbered bench.instructions).map String.toList ∧
    parse other bench.assembly = .ok { instructions := numbered bench.instructions } := by
  obtain ⟨draft, ran, rfl⟩ := (of_statements_ok_iff arch _ bench).mp parsed
  have source := (Draft.run_instructions _ draft ran).trans (List.nil_append _)
  have lines := numbered_plain text
  rw [← source] at lines
  refine ⟨source, ?_, ?_⟩
  · rw [assembly_ended]
    apply Text.lines_ended
    · exact fun line member => (lines line member).1.single
    · intro line member returned
      have solid := (lines line member).1.neat.last_solid _ returned
      rw [Statement.return_blank _ List.mem_cons_self] at solid
      cases solid
  · have texts := Statement.of_text_ended _ fun line member => (lines line member).1
    rw [parse, assembly_ended, of_statements_plain]
    · rw [← List.map_map, texts, List.map_map]
      simp
    · intro statement member
      have inside := List.mem_map_of_mem (f := Prod.snd) member
      rw [texts] at inside
      exact (lines _ inside).2

/-- Three of the instructions start with a hash sign. -/
def hashedText : String :=
  "##ToDo (x)\nnop $ # a) b (\n#skip@2() $ #\n\t#_end \r\n"

theorem hashed_lines_read :
    let bench : Bench :=
      { instructions := ["nop", "# a) b (", "#", "#_end"], todos := ["##ToDo (x)"] }
    parse {} hashedText = .ok bench ∧
      bench.instructions = plainTexts (Statement.ofText hashedText.toList) ∧
      parse { wordSize := 16, irqLines := 0 } bench.assembly = .ok {
        instructions := ["nop   // INSTRUCTION 0", "# a) b (   // INSTRUCTION 1",
          "#   // INSTRUCTION 2", "#_end   // INSTRUCTION 3"] } := by
  intro bench
  have read : parse {} hashedText = .ok bench := by decide +kernel
  have lines : numbered bench.instructions = ["nop   // INSTRUCTION 0",
      "# a) b (   // INSTRUCTION 1", "#   // INSTRUCTION 2", "#_end   // INSTRUCTION 3"] := by
    decide +kernel
  obtain ⟨source, _, again⟩ :=
    parse_assembly {} { wordSize := 16, irqLines := 0 } hashedText bench read
  exact ⟨read, source, by rw [again, lines]⟩

end Bench

end CoreBench
