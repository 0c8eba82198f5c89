import CoreBench.Waveform.Dump

/-!
Lines only have numbers. With other line numbers on its tokens a dump loads in the same way,
and where it does not load, the error has the other number of the same line.
-/

namespace CoreBench.Waveform

def Token.renumber (number : Nat → Nat) (token : Token) : Token :=
  { token with line := number token.line }

@[simp] theorem Token.text_renumber (number : Nat → Nat) (token : Token) :
    (token.renumber number).text = token.text :=
  rfl

def LoadError.renumber (number : Nat → Nat) : LoadError → LoadError
  | .malformed line issue => .malformed (number line) issue
  | .unreadable reason => .unreadable reason
  | .noDefinitions => .noDefinitions

def Place.renumber (number : Nat → Nat) : Place → Place
  | .inside keyword line body inHeader => .inside keyword (number line) body inHeader
  | .vector token line => .vector token (number line)
  | .header => .header
  | .changes => .changes
  | .real => .real

namespace Progress

def renumber (number : Nat → Nat) (progress : Progress) : Progress :=
  { progress with place := progress.place.renumber number }

/-- What comes of some tokens, with other line numbers in it. -/
def renumbered (number : Nat → Nat) : Except LoadError Progress → Except LoadError Progress
  | .ok progress => .ok (progress.renumber number)
  | .error error => .error (error.renumber number)

variable (number : Nat → Nat) (progress : Progress) (line : Nat)

theorem declare_renumber (body : List (List Char)) :
    (progress.renumber number).declare (number line) body =
      renumbered number (progress.declare line body) := by
  rw [declare.eq_def, declare.eq_def]
  split
  · split <;> rfl
  · rfl

theorem close_header_renumber (keyword : List Char) (body : List (List Char)) :
    (progress.renumber number).closeHeader keyword (number line) body =
      renumbered number (progress.closeHeader keyword line body) := by
  rw [closeHeader, closeHeader]
  split
  · split
    · rfl
    · split <;> rfl
  split
  · rfl
  split
  · rfl
  split
  · exact declare_renumber number progress line body
  split
  · rfl
  · rfl

theorem advance_renumber (digits : List Char) :
    (progress.renumber number).advance (number line) digits =
      renumbered number (progress.advance line digits) := by
  rw [advance.eq_def, advance.eq_def]
  split
  · rfl
  · rw [apply_ite (renumbered number), apply_ite (renumbered number)]
    rfl

theorem record_renumber (identifier levels : List Char) :
    (progress.renumber number).record (number line) identifier levels =
      renumbered number (progress.record line identifier levels) := by
  rw [record.eq_def, record.eq_def, apply_ite (renumbered number)]
  congr 1
  split <;> rfl

theorem change_renumber (token : List Char) :
    (progress.renumber number).change (number line) token =
      renumbered number (progress.change line token) := by
  rw [change.eq_def, change.eq_def]
  split
  · split <;> rfl
  · exact advance_renumber number progress line _
  · rfl
  · rfl
  · rfl
  · rfl
  · rfl
  · exact record_renumber number progress line _ _
  · rfl

theorem step_renumber (token : Token) :
    (progress.renumber number).step (token.renumber number) =
      renumbered number (progress.step token) := by
  obtain ⟨place, fsPerUnit, scopes, declared, time, endTime⟩ := progress
  cases place with
  | header =>
      rw [step.eq_def, step.eq_def]
      dsimp only [renumber, Place.renumber, Token.renumber]
      split <;> rfl
  | inside keyword line body inHeader =>
      rw [step.eq_def, step.eq_def]
      dsimp only [renumber, Place.renumber, Token.renumber]
      rw [apply_ite (renumbered number), apply_ite (renumbered number),
        ← close_header_renumber number _ line keyword body.reverse]
      rfl
  | changes => exact change_renumber number _ token.line token.text
  | vector value line => exact record_renumber number _ line token.text value.tail
  | real => rfl

theorem run_renumber (tokens : List Token) :
    (tokens.map (Token.renumber number)).foldlM step (progress.renumber number) =
      renumbered number (tokens.foldlM step progress) := by
  induction tokens generalizing progress with
  | nil => rfl
  | cons token tokens ih =>
      rw [List.map_cons, List.foldlM_cons, List.foldlM_cons, step_renumber]
      cases progress.step token with
      | ok next => exact ih next
      | error error => rfl

/-- The loader starts in the same state, whatever the numbers. -/
theorem run_renumber_start (tokens : List Token) :
    (tokens.map (Token.renumber number)).foldlM step {} = renumbered number (tokens.foldlM step {}) :=
  run_renumber number {} tokens

theorem finish_renumber :
    (progress.renumber number).finish = progress.finish.mapError (LoadError.renumber number) := by
  obtain ⟨place, fsPerUnit, scopes, declared, time, endTime⟩ := progress
  cases place <;> rfl

end Progress

theorem malformed_renumber (number : Nat → Nat) (opener : Token) (issue : DumpIssue) :
    (Except.error (.malformed opener.line issue)).mapError (LoadError.renumber number) =
      (.error (.malformed (opener.renumber number).line issue) : Except LoadError Waveform) :=
  rfl

theorem of_tokens_renumber (number : Nat → Nat) (tokens : List Token) :
    ofTokens (tokens.map (Token.renumber number)) =
      (ofTokens tokens).mapError (LoadError.renumber number) := by
  rw [ofTokens, ofTokens, Progress.run_renumber_start]
  cases tokens.foldlM Progress.step {} with
  | ok progress => exact progress.finish_renumber number
  | error error => rfl

end CoreBench.Waveform
