import CoreBench.Proofs.Accounting
import CoreBench.Proofs.Lines

/-!
A bench text that goes on. What has been read of it stays as it is: more lines add to a bench
at its end, an error in them names one of them, and an error in front of them ends the reading
before they are looked at.
-/

namespace CoreBench

namespace Statement

theorem of_lines_numbered (number : Nat) (lines : List (List Char)) :
    ∀ statement ∈ ofLines number lines, number ≤ statement.1 := by
  induction lines generalizing number with
  | nil => simp [ofLines]
  | cons line lines ih =>
      intro statement member
      rcases List.mem_append.mp member with here | later
      · obtain ⟨_, _, rfl⟩ := List.mem_map.mp here
        exact Nat.le_refl _
      · exact Nat.le_of_succ_le (ih (number + 1) statement later)

/-- An empty line at the end of a text is none of its lines. -/
theorem lines_length_le (cs : List Char) :
    (Text.lines cs).length ≤ (cs.splitOn '\n').length := by
  obtain ⟨front, final, whole, parts⟩ := Text.lines_parts cs
  rw [parts, whole, List.length_append, List.length_append, List.length_map]
  exact Nat.add_le_add_left (List.length_filter_le _ _) _

end Statement

namespace Bench

/-- A bench that goes on where another one ends, and keeps its aliases. -/
structure Extends (longer bench : Bench) : Prop where
  instructions : bench.instructions <+: longer.instructions
  commands : bench.commands <+: longer.commands
  todos : bench.todos <+: longer.todos
  aliases : ∀ name named, bench.aliases.get? name = some named →
    longer.aliases.get? name = some named

theorem Extends.refl (bench : Bench) : bench.Extends bench :=
  ⟨List.prefix_rfl, List.prefix_rfl, List.prefix_rfl, fun _ _ known => known⟩

theorem Extends.trans {longest longer bench : Bench} (further : longest.Extends longer)
    (near : longer.Extends bench) : longest.Extends bench where
  instructions := near.instructions.trans further.instructions
  commands := near.commands.trans further.commands
  todos := near.todos.trans further.todos
  aliases name named known := further.aliases name named (near.aliases name named known)

theorem Draft.takes_extends {arch : Arch} {draft after : Draft} {line : Nat} {cs : List Char}
    {form : Statement} (taken : draft.Takes arch line cs form after) :
    after.bench.Extends draft.bench := by
  have still := Extends.refl draft.bench
  cases taken with
  | todo => exact { still with todos := List.prefix_append _ _ }
  | remark => exact still
  | instruction => exact { still with instructions := List.prefix_append _ _ }
  | skip => exact still
  | define delay defined =>
      exact { still with aliases := AliasTable.define_keeps _ _ _ _ defined }
  | command => exact { still with commands := List.prefix_append _ _ }

/-- Reading that fails names a statement of its text. -/
theorem Draft.run_stops (arch : Arch) (statements : List (Nat × List Char)) (draft : Draft)
    (error : BenchError) (ran : statements.foldlM (step arch) draft = .error error) :
    ∃ statement ∈ statements, error.line = statement.1 := by
  induction statements generalizing draft with
  | nil => cases ran
  | cons statement rest ih =>
      rw [List.foldlM_cons] at ran
      cases stepped : draft.step arch statement with
      | ok next =>
          rw [stepped] at ran
          obtain ⟨other, member, line⟩ := ih next ran
          exact ⟨other, List.mem_cons_of_mem _ member, line⟩
      | error first =>
          rw [stepped] at ran
          cases ran
          refine ⟨statement, List.mem_cons_self, ?_⟩
          rw [step] at stepped
          split at stepped
          · cases stepped
            rfl
          · cases stepped

/-- How reading a text of some lines comes out when more lines follow it. -/
inductive Continues (lines : Nat) : Except BenchError Bench → Except BenchError Bench → Prop where
  | failed (error : BenchError) : Continues lines (.error error) (.error error)
  | broken (bench : Bench) (error : BenchError) (later : lines < error.line) :
      Continues lines (.ok bench) (.error error)
  | extended (bench longer : Bench) (extended : longer.Extends bench) :
      Continues lines (.ok bench) (.ok longer)

/-- Lines behind a text do not change what is read of it. If reading it fails, it fails in
the same way with them; if it succeeds, reading on fails in one of them or gives a bench that
extends the one that was read. -/
theorem parse_continues (arch : Arch) (front back : String) :
    Continues (Text.lines front.toList).length (parse arch front)
      (parse arch (front ++ "\n" ++ back)) := by
  have statements : Statement.ofText (front ++ "\n" ++ back).toList =
      Statement.ofText front.toList ++
        Statement.ofLines (1 + (front.toList.splitOn '\n').length) (back.toList.splitOn '\n') := by
    rw [String.toList_append, String.toList_append, List.append_assoc]
    exact Statement.of_text_append_line front.toList back.toList
  rw [parse, parse, statements, ofStatements, ofStatements, List.foldlM_append]
  cases ran : (Statement.ofText front.toList).foldlM (Draft.step arch) {} with
  | error error => exact .failed error
  | ok draft =>
      show Continues _ (.ok draft.bench)
        ((List.foldlM (Draft.step arch) draft (Statement.ofLines _ _)).map Draft.bench)
      cases more : List.foldlM (Draft.step arch) draft
          (Statement.ofLines (1 + (front.toList.splitOn '\n').length)
            (back.toList.splitOn '\n')) with
      | error error =>
          obtain ⟨statement, member, line⟩ := Draft.run_stops arch _ draft error more
          have numbered := Statement.of_lines_numbered _ _ statement member
          have count := Statement.lines_length_le front.toList
          exact .broken draft.bench error (by omega)
      | ok after =>
          exact .extended draft.bench after.bench (Draft.run_keeps arch
            (fun later => later.bench.Extends draft.bench)
            (fun _ _ _ _ _ taken kept => (Draft.takes_extends taken).trans kept)
            _ draft after more (.refl draft.bench))

end Bench

end CoreBench
