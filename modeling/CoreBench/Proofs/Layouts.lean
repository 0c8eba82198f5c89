import CoreBench.Proofs.Recording
import CoreBench.Proofs.Renumbering
import CoreBench.Proofs.Tokens

/-!
The layout of a dump does not matter. The words alone decide what is loaded and what is wrong;
their lines decide only which number an error has, and that is the number of the line of the
word with which the failing section, timestamp or value change begins.
-/

namespace CoreBench.Waveform

/-- The loader stands between two sections, timestamps or value changes. -/
def Place.Between : Place → Prop
  | .header | .changes => True
  | .inside .. | .vector .. | .real => False

/-- What has begun at a place and has not ended: a section or the change of a vector, with
its first token, or nothing that could fail. -/
inductive Place.Holds : Place → Option Token → Prop where
  | header : Holds .header none
  | changes : Holds .changes none
  | real : Holds .real none
  | inside (name : List Char) (line : Nat) (body : List (List Char)) (inHeader : Bool) :
      Holds (.inside ('$' :: name) line body inHeader) (some ⟨line, '$' :: name⟩)
  | vector (mark : Char) (levels : List Char) (line : Nat) (marked : mark = 'b' ∨ mark = 'B') :
      Holds (.vector (mark :: levels) line) (some ⟨line, mark :: levels⟩)

/-- The issue is one of the section, timestamp or value change that begins with the word. -/
inductive DumpIssue.Concerns : DumpIssue → List Char → Prop where
  | timescale (error : TimeUnitError) : Concerns (.timescale error) "$timescale".toList
  | unterminated (name : List Char) :
      Concerns (.unterminated (String.ofList ('$' :: name))) ('$' :: name)
  | variableBody (body : String) : Concerns (.variableBody body) "$var".toList
  | variableWidth (width : String) : Concerns (.variableWidth width) "$var".toList
  | header (word : List Char) (unmarked : word.head? ≠ some '$') :
      Concerns (.header (String.ofList word)) word
  | timestamp (digits : List Char) : Concerns (.timestamp (String.ofList digits)) ('#' :: digits)
  | timestampRange (digits : List Char) :
      Concerns (.timestampRange (String.ofList digits)) ('#' :: digits)
  | timestampOrder (digits : List Char) :
      Concerns (.timestampOrder (String.ofList digits)) ('#' :: digits)
  | noIdentifier (mark : Char) (levels : List Char) (marked : mark = 'b' ∨ mark = 'B') :
      Concerns (.noIdentifier (String.ofList (mark :: levels))) (mark :: levels)
  | valueChange (level : Char) : Concerns (.valueChange (String.ofList [level])) [level]
  | vector (mark : Char) (levels : List Char) (marked : mark = 'b' ∨ mark = 'B') :
      Concerns (.value (String.ofList levels)) (mark :: levels)
  | single (level : Char) (identifier : List Char) :
      Concerns (.value (String.ofList [level])) (level :: identifier)

/-- What comes of a token in what the opener has begun: it ends, it stays open or it fails. -/
inductive Outcome (opener : Token) : Except LoadError Progress → Prop where
  | ended {next : Progress} (holds : next.place.Holds none) : Outcome opener (.ok next)
  | ongoing {next : Progress} (holds : next.place.Holds (some opener)) : Outcome opener (.ok next)
  | failed {issue : DumpIssue} (concerns : issue.Concerns opener.text) :
      Outcome opener (.error (.malformed opener.line issue))

namespace Progress

variable (progress : Progress) (line : Nat)

theorem declare_outcome (body : List (List Char)) :
    Outcome ⟨line, "$var".toList⟩ (progress.declare line body) := by
  rw [declare.eq_def]
  split
  · split
    · exact .failed (.variableWidth _)
    · exact .ended .header
  · exact .failed (.variableBody _)

theorem close_header_outcome (keyword : List Char) (body : List (List Char)) :
    Outcome ⟨line, keyword⟩ (progress.closeHeader keyword line body) := by
  rw [closeHeader]
  split
  case isTrue timescale =>
    subst timescale
    split
    · exact .ended .header
    · split
      · exact .ended .header
      · exact .failed (.timescale _)
  split
  · exact .ended .header
  split
  · exact .ended .header
  split
  case isTrue declares =>
    subst declares
    exact declare_outcome progress line body
  split
  · exact .ended .changes
  · exact .ended .header

theorem advance_outcome (digits : List Char) (here : progress.place = .changes) :
    Outcome ⟨line, '#' :: digits⟩ (progress.advance line digits) := by
  have again : progress.place.Holds none := by
    rw [here]
    exact .changes
  rw [advance.eq_def]
  split
  · exact .failed (.timestamp digits)
  · dsimp only
    split
    · exact .failed (.timestampRange digits)
    split
    · exact .failed (.timestampOrder digits)
    · exact .ended again

theorem record_outcome (word identifier levels : List Char)
    (concerns : (DumpIssue.value (String.ofList levels)).Concerns word) :
    Outcome ⟨line, word⟩ (progress.record line identifier levels) := by
  rw [record.eq_def]
  split
  · split
    · exact .failed concerns
    · exact .ended .changes
  · exact .ended .changes

theorem change_outcome (word : List Char) (here : progress.place = .changes) :
    Outcome ⟨line, word⟩ (progress.change line word) := by
  have again : progress.place.Holds none := by
    rw [here]
    exact .changes
  rw [change.eq_def]
  split
  case h_1 rest =>
    split
    · exact .ended again
    · exact .ongoing (.inside rest line [] false)
  case h_2 digits => exact advance_outcome progress line digits here
  case h_3 rest => exact .ongoing (.vector 'b' rest line (.inl rfl))
  case h_4 rest => exact .ongoing (.vector 'B' rest line (.inr rfl))
  case h_5 | h_6 => exact .ended .real
  case h_7 level _ _ _ _ _ _ => exact .failed (.valueChange level)
  case h_8 level identifier _ _ _ _ _ _ _ =>
    exact record_outcome progress line _ identifier [level] (.single level identifier)
  case h_9 => exact .ended again

variable {progress} {held : Option Token} (token : Token)

/-- A token goes on with what is open. Where nothing is open it begins something itself,
unless it is the identifier of a real value, which is passed over. -/
theorem step_outcome (holds : progress.place.Holds held) :
    (∃ next, progress.step token = .ok next ∧ next.place.Holds none) ∨
      (held = none → progress.place.Between) ∧ Outcome (held.getD token) (progress.step token) := by
  rw [step]
  generalize here : progress.place = place at holds
  cases holds with
  | header =>
      refine .inr ⟨fun _ => trivial, ?_⟩
      obtain ⟨line, word⟩ := token
      dsimp only
      split
      case h_1 rest => exact .ongoing (.inside rest line [] true)
      case h_2 unmarked =>
        refine .failed (.header word fun marked => ?_)
        obtain ⟨rest, text⟩ := List.head?_eq_some_iff.mp marked
        exact unmarked rest text
  | changes => exact .inr ⟨fun _ => trivial, change_outcome progress token.line token.text here⟩
  | real => exact .inl ⟨_, rfl, .changes⟩
  | inside name line body inHeader =>
      refine .inr ⟨by simp, ?_⟩
      dsimp only
      split
      · exact .ongoing (.inside name line _ inHeader)
      · split
        · exact close_header_outcome progress line _ _
        · exact .ended .changes
  | vector mark levels line marked =>
      exact .inr ⟨by simp, record_outcome progress line _ _ levels (.vector mark levels marked)⟩

theorem finish_blames (holds : progress.place.Holds held) (error : LoadError)
    (finished : progress.finish = .error error) : error = .noDefinitions ∨ ∃ opener issue, held = some opener ∧
      error = .malformed opener.line issue ∧ issue.Concerns opener.text := by
  rw [finish] at finished
  generalize progress.place = place at holds finished
  cases holds with
  | header =>
      cases finished
      exact .inl rfl
  | changes | real => cases finished
  | inside name line body inHeader =>
      cases finished
      exact .inr ⟨_, _, rfl, rfl, .unterminated name⟩
  | vector mark levels line marked =>
      cases finished
      exact .inr ⟨_, _, rfl, rfl, .noIdentifier mark levels marked⟩

end Progress

theorem Place.Holds.between {place : Place} {opener : Token} (holds : place.Holds (some opener)) :
    ¬ place.Between := by
  cases holds <;> exact id

theorem Place.between_renumber (number : Nat → Nat) (place : Place) :
    (place.renumber number).Between ↔ place.Between := by
  cases place <;> rfl

/-- The loader takes some first tokens, and nothing is open behind them. -/
def Rests (tokens : List Token) (count : Nat) : Prop :=
  ∃ progress, (tokens.take count).foldlM Progress.step {} = .ok progress ∧ progress.place.Between

/-- With the token at the place something begins that does not end among the first tokens. -/
structure OpenFrom (tokens : List Token) (place count : Nat) : Prop where
  before : Rests tokens place
  after : ∀ later, place < later → later ≤ count → ¬ Rests tokens later

theorem rests_renumber (number : Nat → Nat) (tokens : List Token) (count : Nat) :
    Rests (tokens.map (Token.renumber number)) count ↔ Rests tokens count := by
  rw [Rests, Rests, ← List.map_take, Progress.run_renumber_start]
  cases (tokens.take count).foldlM Progress.step {} with
  | error error => simp [Progress.renumbered]
  | ok progress => simpa [Progress.renumbered, Progress.renumber] using progress.place.between_renumber number

/-- Behind a token that does not fit the loader rests no more. -/
theorem not_rests_of_error {tokens : List Token} {count later : Nat} {token : Token}
    {progress : Progress} {error : LoadError} (there : tokens[count]? = some token)
    (ran : (tokens.take count).foldlM Progress.step {} = .ok progress)
    (stopped : progress.step token = .error error) (behind : count < later) :
    ¬ Rests tokens later := by
  rintro ⟨other, again, _⟩
  have parted := List.take_append_drop (count + 1) (tokens.take later)
  rw [List.take_take, Nat.min_eq_left behind, List.take_add_one, there] at parted
  rw [← parted, Progress.run_append_ok_iff] at again
  obtain ⟨next, taken, _⟩ := again
  rw [Option.toList_some, Progress.run_concat_ok_iff] at taken
  obtain ⟨before, early, stepped⟩ := taken
  cases ran.symm.trans early
  cases stopped.symm.trans stepped

namespace OpenFrom

variable {tokens : List Token} {place count total : Nat}

theorem renumber (number : Nat → Nat) (opened : OpenFrom tokens place count) :
    OpenFrom (tokens.map (Token.renumber number)) place count where
  before := (rests_renumber number tokens place).mpr opened.before
  after later behind within rests :=
    opened.after later behind within ((rests_renumber number tokens later).mp rests)

theorem onwards (opened : OpenFrom tokens place count)
    (stuck : ∀ later, count < later → later ≤ total → ¬ Rests tokens later) :
    OpenFrom tokens place total where
  before := opened.before
  after later behind within := by
    by_cases early : later ≤ count
    · exact opened.after later behind early
    · exact stuck later (Nat.lt_of_not_le early) within

theorem here (rests : Rests tokens place) : OpenFrom tokens place place :=
  ⟨rests, fun _ behind within => absurd within (Nat.not_le_of_lt behind)⟩

end OpenFrom

/-- A run that fails has a first token that does not fit. -/
theorem Progress.run_error {tokens : List Token} {progress : Progress} {error : LoadError}
    (failed : tokens.foldlM step progress = .error error) :
    ∃ count token middle, tokens[count]? = some token ∧
      (tokens.take count).foldlM step progress = .ok middle ∧ middle.step token = .error error := by
  induction tokens generalizing progress with
  | nil => cases failed
  | cons token tokens ih =>
      rw [List.foldlM_cons] at failed
      cases stepped : progress.step token with
      | error first =>
          rw [stepped] at failed
          cases failed
          exact ⟨0, token, progress, rfl, rfl, stepped⟩
      | ok next =>
          rw [stepped] at failed
          obtain ⟨count, last, middle, there, ran, stopped⟩ := ih failed
          refine ⟨count + 1, last, middle, there, ?_, stopped⟩
          rw [List.take_succ_cons, List.foldlM_cons, stepped]
          exact ran

namespace Token

/-- The words as tokens, whose lines have the places of the words for numbers. -/
def placed (words : List (List Char)) : List Token :=
  words.mapIdx Token.mk

def lineAt (tokens : List Token) (place : Nat) : Nat :=
  (tokens[place]?.map Token.line).getD 0

theorem get_placed (words : List (List Char)) (place : Nat) :
    (placed words)[place]? = words[place]?.map (Token.mk place) :=
  List.getElem?_mapIdx

theorem renumber_placed (tokens : List Token) :
    (placed (tokens.map Token.text)).map (renumber (lineAt tokens)) = tokens := by
  apply List.ext_getElem?
  intro place
  rw [List.getElem?_map, get_placed, List.getElem?_map]
  cases there : tokens[place]? with
  | none => rfl
  | some token => simp [renumber, lineAt, there]

end Token

/-- The opener, which has its place for a number, is a word and opens what the first words
leave open. -/
structure OpenedBy (words : List (List Char)) (opener : Token) (count : Nat) : Prop where
  there : words[opener.line]? = some opener.text
  opened : OpenFrom (Token.placed words) opener.line count

theorem OpenedBy.next {words : List (List Char)} {word : List Char} {count : Nat}
    {held : Option Token} {progress : Progress} (there : words[count]? = some word)
    (ran : ((Token.placed words).take count).foldlM Progress.step {} = .ok progress)
    (alone : held = none → progress.place.Between)
    (began : ∀ opener ∈ held, OpenedBy words opener count) :
    OpenedBy words (held.getD ⟨count, word⟩) count := by
  cases held with
  | none => exact ⟨there, .here ⟨progress, ran, alone rfl⟩⟩
  | some opener => exact began opener rfl

/-- What is open behind some first words began with one of them. -/
theorem run_holds (words : List (List Char)) (count : Nat) (progress : Progress)
    (within : count ≤ words.length)
    (ran : ((Token.placed words).take count).foldlM Progress.step {} = .ok progress) :
    ∃ held, progress.place.Holds held ∧ ∀ opener ∈ held, OpenedBy words opener count := by
  induction count generalizing progress with
  | zero =>
      cases ran
      exact ⟨none, .header, by simp⟩
  | succ count ih =>
      -- On the count of words; the next one has this count as its number.
      have there := List.getElem?_eq_getElem within
      generalize words[count] = word at there
      have grown : (Token.placed words).take (count + 1) =
          (Token.placed words).take count ++ [⟨count, word⟩] := by
        rw [List.take_add_one, Token.get_placed, there]
        rfl
      have full := ran
      rw [grown] at ran
      obtain ⟨middle, early, stepped⟩ := (Progress.run_concat_ok_iff _ _ _ _).mp ran
      obtain ⟨held, holds, began⟩ := ih middle (Nat.le_of_lt within) early
      rcases Progress.step_outcome ⟨count, word⟩ holds with ⟨next, ended, free⟩ | ⟨alone, outcome⟩
      · cases stepped.symm.trans ended
        exact ⟨none, free, by simp⟩
      rw [stepped] at outcome
      cases outcome with
      | ended free => exact ⟨none, free, by simp⟩
      | ongoing still =>
          refine ⟨_, still, ?_⟩
          rintro opener ⟨⟩
          obtain ⟨present, opened⟩ := OpenedBy.next there early alone began
          refine ⟨present, opened.onwards ?_⟩
          -- Only one more token has been taken, and behind it something is open.
          rintro later behind bound ⟨other, again, between⟩
          obtain rfl : later = count + 1 := Nat.le_antisymm bound behind
          cases full.symm.trans again
          exact still.between between

/-- Where words do not load, an error with a number has the place of the word with which the
section, timestamp or value change begins. -/
theorem placed_error (words : List (List Char)) (error : LoadError)
    (failed : ofTokens (Token.placed words) = .error error) :
    error = .noDefinitions ∨ ∃ opener issue, error = .malformed opener.line issue ∧
      issue.Concerns opener.text ∧ OpenedBy words opener words.length := by
  rw [ofTokens] at failed
  cases ran : (Token.placed words).foldlM Progress.step {} with
  | ok final =>
      rw [ran] at failed
      have all : (Token.placed words).take words.length = Token.placed words :=
        List.take_of_length_le (Nat.le_of_eq List.length_mapIdx)
      obtain ⟨held, holds, began⟩ :=
        run_holds words words.length final (Nat.le_refl _) (by rw [all, ran])
      rcases Progress.finish_blames holds error failed with none | ⟨opener, issue, rfl, rfl, concerns⟩
      · exact .inl none
      · exact .inr ⟨opener, issue, rfl, concerns, began opener rfl⟩
  | error first =>
      rw [ran] at failed
      cases failed
      obtain ⟨count, token, middle, there, early, stopped⟩ := Progress.run_error ran
      -- Behind the token that does not fit nothing ends any more, so what was open stays open.
      have stuck : ∀ later, count < later → later ≤ words.length → ¬ Rests (Token.placed words) later :=
        fun later behind _ => not_rests_of_error there early stopped behind
      rw [Token.get_placed, Option.map_eq_some_iff] at there
      obtain ⟨word, there, rfl⟩ := there
      have within : count ≤ words.length := Nat.le_of_lt (List.getElem?_eq_some_iff.mp there).1
      obtain ⟨held, holds, began⟩ := run_holds words count middle within early
      rcases Progress.step_outcome ⟨count, word⟩ holds with ⟨next, ended, _⟩ | ⟨alone, outcome⟩
      · cases stopped.symm.trans ended
      rw [stopped] at outcome
      cases outcome with
      | failed concerns =>
          obtain ⟨present, opened⟩ := OpenedBy.next there early alone began
          exact .inr ⟨_, _, rfl, concerns, present, opened.onwards stuck⟩

/-- The token begins the section, timestamp or value change at which the loading of a text
fails: nothing is open in front of it, and nothing that is begun with it or later ends. -/
structure Token.Opens (token : Token) (text : List Char) (place : Nat) : Prop where
  there : (ofText text)[place]? = some token
  stands : token.StandsIn text place
  opened : OpenFrom (ofText text) place (ofText text).length

theorem of_text_placed (text : List Char) :
    Token.ofText text = (Token.placed (Text.words text)).map
      (Token.renumber (Token.lineAt (Token.ofText text))) := by
  rw [← Token.text_of_text, Token.renumber_placed]

theorem opens_of_opened_by (text : List Char) (opener : Token)
    (began : OpenedBy (Text.words text) opener (Text.words text).length) :
    (opener.renumber (Token.lineAt (Token.ofText text))).Opens text opener.line := by
  have found : (Token.ofText text)[opener.line]? =
      some (opener.renumber (Token.lineAt (Token.ofText text))) := by
    rw [of_text_placed, List.getElem?_map, Token.get_placed, began.there, ← of_text_placed]
    rfl
  have length : (Token.ofText text).length = (Text.words text).length := by
    rw [← Token.text_of_text, List.length_map]
  refine ⟨found, Token.stands_in text opener.line _ found, ?_⟩
  rw [length, of_text_placed]
  exact began.opened.renumber _

/-- How two layouts of the same words load: with the same waveform, or with the same error.
Its number, if it has one, is that of the line where the failing section, timestamp or value
change begins, with the same word in both. -/
inductive Alike (text other : List Char) :
    Except LoadError Waveform → Except LoadError Waveform → Prop where
  | loaded (waveform : Waveform) : Alike text other (.ok waveform) (.ok waveform)
  | noDefinitions : Alike text other (.error .noDefinitions) (.error .noDefinitions)
  | malformed (issue : DumpIssue) (place : Nat) (opener twin : Token)
      (first : opener.Opens text place) (second : twin.Opens other place)
      (word : opener.text = twin.text) (concerns : issue.Concerns opener.text) :
      Alike text other (.error (.malformed opener.line issue)) (.error (.malformed twin.line issue))

/-- The words of a dump decide how it loads, however they are laid out. -/
theorem load_ignores_layout (text other : String)
    (same : Text.words text.toList = Text.words other.toList) :
    Alike text.toList other.toList (load (.ok text)) (load (.ok other)) := by
  have first : load (.ok text) = (ofTokens (Token.placed (Text.words text.toList))).mapError
      (LoadError.renumber (Token.lineAt (Token.ofText text.toList))) := by
    rw [← of_tokens_renumber, ← of_text_placed]
    rfl
  have second : load (.ok other) = (ofTokens (Token.placed (Text.words text.toList))).mapError
      (LoadError.renumber (Token.lineAt (Token.ofText other.toList))) := by
    rw [← of_tokens_renumber, same, ← of_text_placed]
    rfl
  rw [first, second]
  cases result : ofTokens (Token.placed (Text.words text.toList)) with
  | ok waveform => exact .loaded waveform
  | error error =>
      rcases placed_error _ error result with rfl | ⟨opener, issue, rfl, concerns, began⟩
      · exact .noDefinitions
      · have one := opens_of_opened_by text.toList opener began
        rw [same] at began
        have two := opens_of_opened_by other.toList opener began
        rw [malformed_renumber, malformed_renumber]
        exact .malformed issue opener.line _ _ one two (by simp) concerns

/-- The section of an unknown time unit ends below the line on which it begins. -/
def oddUnit : String :=
  "$scope a $end $timescale\n1 qs\n$end"

/-- The same words with other white space. -/
def oddUnitSpread : String :=
  " $scope\u2003a $end\r\n\n$timescale\t1 qs $end\n"

theorem odd_unit_layouts :
    Text.words oddUnit.toList = Text.words oddUnitSpread.toList ∧
      Alike oddUnit.toList oddUnitSpread.toList
        (.error (.malformed 1 (.timescale (.unknown "qs"))))
        (.error (.malformed 3 (.timescale (.unknown "qs")))) := by
  have same : Text.words oddUnit.toList = Text.words oddUnitSpread.toList := by decide +kernel
  have first : load (.ok oddUnit) = .error (.malformed 1 (.timescale (.unknown "qs"))) := by rfl
  have second : load (.ok oddUnitSpread) = .error (.malformed 3 (.timescale (.unknown "qs"))) := by rfl
  have alike := load_ignores_layout oddUnit oddUnitSpread same
  rw [first, second] at alike
  exact ⟨same, alike⟩

end CoreBench.Waveform
