import CoreBench.Proofs.Numerals
import CoreBench.Proofs.Printing

/-!
Loading undoes writing. The loader reads the words of a printed dump piece by piece;
what each piece does to it is stated for all line numbers that its tokens may have.
-/

namespace CoreBench.Waveform

def Declaration.entry (declaration : Declaration) : Variable :=
  ⟨declaration.identifier, dottedName declaration.scopes declaration.name, declaration.width, []⟩

def Variable.after (changes : List Change) (entry : Variable) : Variable :=
  { entry with newest := (historyOf changes entry.identifier entry.width).reverse ++ entry.newest }

@[simp] theorem Variable.after_nil (entry : Variable) : entry.after [] = entry := by
  simp [after, historyOf]

theorem Variable.note_after (change : Change) (changes : List Change) (entry : Variable) :
    (entry.note change).after changes = entry.after (change :: changes) := by
  by_cases own : entry.identifier = change.identifier
  · simp [note, after, historyOf, own]
  · have foreign : change.identifier ≠ entry.identifier := Ne.symm own
    simp [note, after, historyOf, own, foreign]

namespace Progress

/-- Tokens with these texts lead from one state to another, on whatever lines they are. -/
def Reads (progress : Progress) (texts : List (List Char)) (next : Progress) : Prop :=
  ∀ tokens : List Token, tokens.map Token.text = texts →
    tokens.foldlM Progress.step progress = .ok next

theorem reads_nil (progress : Progress) : progress.Reads [] progress := by
  intro tokens same
  obtain rfl := List.map_eq_nil_iff.mp same
  rfl

theorem reads_append {progress middle next : Progress} {front back : List (List Char)}
    (first : progress.Reads front middle) (second : middle.Reads back next) :
    progress.Reads (front ++ back) next := by
  intro tokens same
  -- Texts fall apart as their tokens do.
  obtain ⟨before, after, rfl, early, late⟩ := List.map_eq_append_iff.mp same
  rw [List.foldlM_append, first before early]
  exact second after late

theorem reads_word (progress next : Progress) (text : List Char)
    (stepped : ∀ line, progress.step ⟨line, text⟩ = .ok next) : progress.Reads [text] next := by
  intro tokens same
  obtain ⟨token, rfl, rfl⟩ := List.map_eq_singleton_iff.mp same
  rw [List.foldlM_cons, stepped token.line]
  rfl

theorem reads_body (progress : Progress) (keyword : List Char) (line : Nat)
    (body held : List (List Char)) (inHeader : Bool) (ongoing : ∀ word ∈ body, word ≠ "$end".toList) :
    Reads { progress with place := .inside keyword line held inHeader } body
      { progress with place := .inside keyword line (body.reverse ++ held) inHeader } := by
  induction body generalizing held with
  | nil => exact reads_nil _
  | cons word body ih =>
      have kept : Reads { progress with place := .inside keyword line held inHeader } [word]
          { progress with place := .inside keyword line (word :: held) inHeader } := by
        apply reads_word
        intro number
        exact if_pos (ongoing word List.mem_cons_self)
      have rest := ih (word :: held) fun other member => ongoing other (List.mem_cons_of_mem word member)
      rw [List.reverse_cons, List.append_assoc]
      exact reads_append kept rest

/-- A section of the definitions does what its keyword says when it ends. -/
theorem reads_section (progress next : Progress) (keyword : List Char) (body : List (List Char))
    (here : progress.place = .header) (marked : keyword.head? = some '$')
    (ongoing : ∀ word ∈ body, word ≠ "$end".toList)
    (closed : ∀ line, progress.closeHeader keyword line body = .ok next) :
    progress.Reads (keyword :: body ++ ["$end".toList]) next := by
  intro tokens same
  obtain ⟨opening, rest, rfl, text, later⟩ := List.map_eq_cons_iff.mp same
  obtain ⟨name, rfl⟩ := List.head?_eq_some_iff.mp marked
  have entered : progress.step opening =
      .ok { progress with place := .inside ('$' :: name) opening.line [] true } := by
    simp only [step, here, text]
  have kept := reads_body progress ('$' :: name) opening.line body [] true ongoing
  rw [List.foldlM_cons, entered]
  refine reads_append kept (reads_word _ next _ ?_) rest later
  intro line
  have whole : (body.reverse ++ []).reverse = body := by rw [List.append_nil, List.reverse_reverse]
  simp only [step, ne_eq, not_true_eq_false, ↓reduceIte, whole]
  -- Every ending of a section sets the place, so the one inside the section is forgotten.
  exact closed opening.line

/-- The loader among the definitions, after some scopes and variables. -/
def defining (unit : Nat) (scopes : List (List Char)) (declared : List Variable) : Progress :=
  { fsPerUnit := unit, scopes, declared }

/-- The loader among the changes, at a time. -/
def recording (unit : Nat) (declared : List Variable) (time : Nat) : Progress :=
  { place := .changes, fsPerUnit := unit, declared, time, endTime := time }

variable (unit : Nat) (scopes : List (List Char)) (declared : List Variable)

theorem reads_timescale (text : List Char) (read : TimeUnit.ofChars text = .ok unit) :
    (defining 1 scopes declared).Reads ("$timescale".toList :: Text.words text ++ ["$end".toList])
      (defining unit scopes declared) := by
  obtain ⟨again, nonempty, clean⟩ := TimeUnit.of_chars_words text unit read
  apply reads_section _ _ _ _ rfl (by decide)
  · rintro word member rfl
    apply clean
    exact List.mem_flatten.mpr ⟨_, member, by decide⟩
  · intro line
    have full : (Text.words text).flatten.isEmpty = false := List.isEmpty_eq_false_iff.mpr nonempty
    rw [closeHeader, if_pos rfl, full, again]
    rfl

theorem reads_opening (scope : List Char) (plain : Plain scope) :
    (defining unit scopes declared).Reads (Declaration.opening scope)
      (defining unit (scopes ++ [scope]) declared) := by
  apply reads_section _ _ "$scope".toList ["module".toList, scope] rfl (by decide)
  · intro word member
    simp only [List.mem_cons, List.not_mem_nil, or_false] at member
    rcases member with rfl | rfl
    · decide
    · exact plain.2
  · intro line
    rw [closeHeader, if_neg (by decide), if_pos rfl]
    rfl

theorem reads_openings (inner : List (List Char)) (plain : ∀ scope ∈ inner, Plain scope) :
    (defining unit scopes declared).Reads (inner.flatMap Declaration.opening)
      (defining unit (scopes ++ inner) declared) := by
  induction inner generalizing scopes with
  | nil =>
      rw [List.append_nil]
      exact reads_nil _
  | cons scope inner ih =>
      have first := reads_opening unit scopes declared scope (plain scope List.mem_cons_self)
      have rest := ih (scopes ++ [scope]) fun other member =>
        plain other (List.mem_cons_of_mem scope member)
      rw [List.append_assoc] at rest
      exact reads_append first rest

theorem reads_closing :
    (defining unit scopes declared).Reads Declaration.closing
      (defining unit scopes.dropLast declared) := by
  apply reads_section _ _ "$upscope".toList [] rfl (by decide) (by simp)
  intro line
  rw [closeHeader, if_neg (by decide), if_neg (by decide), if_pos rfl]
  rfl

theorem reads_closings (count : Nat) :
    (defining unit scopes declared).Reads (List.replicate count Declaration.closing).flatten
      (defining unit (scopes.take (scopes.length - count)) declared) := by
  induction count generalizing scopes with
  | zero =>
      rw [Nat.sub_zero, List.take_length]
      exact reads_nil _
  | succ count ih =>
      have rest := ih scopes.dropLast
      -- Each closing takes away the innermost scope.
      have left : scopes.dropLast.take (scopes.dropLast.length - count) =
          scopes.take (scopes.length - (count + 1)) := by
        rw [List.length_dropLast, List.dropLast_eq_take, List.take_take]
        congr 1
        omega
      rw [left] at rest
      exact reads_append (reads_closing unit scopes declared) rest

theorem reads_statement (declaration : Declaration) (printable : declaration.Printable) :
    (defining unit scopes declared).Reads declaration.statement
      (defining unit scopes (declared ++
        [⟨declaration.identifier, dottedName scopes declaration.name, declaration.width, []⟩])) := by
  apply reads_section _ _ "$var".toList [declaration.kind, Nat.toDigits 10 declaration.width,
    declaration.identifier, declaration.name] rfl (by decide)
  · intro word member
    simp only [List.mem_cons, List.not_mem_nil, or_false] at member
    rcases member with rfl | rfl | rfl | rfl
    · exact printable.kind.2
    · intro same
      have absent := Text.decimal_not_mem _ declaration.width '$' (Text.digits_decimal _) (by decide)
      rw [same] at absent
      exact absurd absent (by decide)
    · exact printable.identifier.2
    · exact printable.name.2
  · intro line
    rw [closeHeader, if_neg (by decide), if_neg (by decide), if_neg (by decide), if_pos rfl,
      declare, Text.unsigned_digits 32 declaration.width printable.width]
    rfl

/-- The scopes around a variable are left again behind it. -/
theorem reads_declaration (declaration : Declaration) (printable : declaration.Printable) :
    (defining unit [] declared).Reads declaration.words
      (defining unit [] (declared ++ [declaration.entry])) := by
  have opened := reads_openings unit [] declared declaration.scopes printable.scopes
  have stated := reads_statement unit declaration.scopes declared declaration printable
  have closed := reads_closings unit declaration.scopes (declared ++ [declaration.entry])
    declaration.scopes.length
  rw [Nat.sub_self, List.take_zero] at closed
  exact reads_append (reads_append opened stated) closed

theorem reads_declarations (declarations : List Declaration)
    (printable : ∀ declaration ∈ declarations, declaration.Printable) :
    (defining unit [] declared).Reads (declarations.flatMap Declaration.words)
      (defining unit [] (declared ++ declarations.map Declaration.entry)) := by
  induction declarations generalizing declared with
  | nil =>
      rw [List.map_nil, List.append_nil]
      exact reads_nil _
  | cons declaration declarations ih =>
      have first := reads_declaration unit declared declaration
        (printable declaration List.mem_cons_self)
      have rest := ih (declared ++ [declaration.entry]) fun other member =>
        printable other (List.mem_cons_of_mem declaration member)
      rw [List.append_assoc] at rest
      exact reads_append first rest

theorem reads_definitions_end :
    (defining unit [] declared).Reads ["$enddefinitions".toList, "$end".toList]
      (recording unit declared 0) := by
  apply reads_section _ _ "$enddefinitions".toList [] rfl (by decide) (by simp)
  intro line
  rw [closeHeader, if_neg (by decide), if_neg (by decide), if_neg (by decide), if_neg (by decide),
    if_pos rfl]
  rfl

theorem reads_time (now count : Nat) (counted : count * unit < wordLimit) (positive : 0 < unit)
    (order : now ≤ count * unit) :
    (recording unit declared now).Reads (Entry.time count).words
      (recording unit declared (count * unit)) := by
  apply reads_word
  intro line
  have small : count < 1 <<< 64 := by
    rw [← wordLimit_eq]
    exact Nat.lt_of_le_of_lt (Nat.le_mul_of_pos_right count positive) counted
  have read := Text.unsigned_digits 64 count small
  exact (advance_ok_iff _ _ line _).mpr ⟨count, read, counted, order, rfl⟩

theorem reads_vector (now : Nat) (levels identifier : List Char)
    (readable : (Change.mk now identifier levels).Readable) :
    (recording unit declared now).Reads (Entry.vector levels identifier).words
      ((recording unit declared now).note ⟨now, identifier, levels⟩) := by
  intro tokens same
  obtain ⟨token, rest, rfl, text, later⟩ := List.map_eq_cons_iff.mp same
  have held : (recording unit declared now).step token =
      .ok { recording unit declared now with place := .vector token.text token.line } := by
    simp only [step, recording, change, text]
  rw [List.foldlM_cons, held]
  refine reads_word _ _ identifier ?_ rest later
  intro line
  simp only [step, text, List.tail_cons]
  exact (record_ok_iff _ _ _ _ _).mpr ⟨fun _ => readable, rfl⟩

theorem reads_single (now : Nat) (level : Char) (identifier : List Char)
    (valid : (Level.ofChar? level).isSome) (named : identifier ≠ []) :
    (recording unit declared now).Reads (Entry.single level identifier).words
      ((recording unit declared now).note ⟨now, identifier, [level]⟩) := by
  apply reads_word
  intro line
  have disjoint : (levelCharacters.all fun c => !markers.contains c) = true := by decide
  have unmarked : level ∉ markers := by
    simpa using List.all_eq_true.mp disjoint level (level_character level valid)
  have readable : (Change.mk now identifier [level]).Readable := by
    refine ⟨List.cons_ne_nil level [], ?_⟩
    intro c member
    rwa [List.mem_singleton.mp member]
  have taken : (recording unit declared now).change line (level :: identifier) =
      (recording unit declared now).record line identifier [level] := by
    rw [change.eq_def]
    -- The marked tokens are the other cases, and a level is none of the marks.
    split <;> simp_all [markers]
  exact taken.trans ((record_ok_iff _ _ _ _ _).mpr ⟨fun _ => readable, rfl⟩)

/-- What follows the definitions. Noting a change keeps the time, and a timestamp keeps
the variables, so the entries are read one after the other. -/
theorem reads_entries (now : Nat) (entries : List Entry) (positive : 0 < unit)
    (printable : ∀ entry ∈ entries, entry.Printable unit)
    (ordered : (entries.filterMap Entry.time?).Pairwise (· ≤ ·))
    (ahead : ∀ count ∈ entries.filterMap Entry.time?, now ≤ count * unit) :
    (recording unit declared now).Reads (entries.flatMap Entry.words)
      (recording unit (declared.map (Variable.after (Entry.changes unit now entries)))
        (Entry.ending unit now entries)) := by
  induction entries generalizing now declared with
  | nil =>
      have same : declared.map (Variable.after []) = declared := List.map_id declared
      rw [Entry.changes, Entry.ending, same]
      exact reads_nil _
  | cons entry rest ih =>
      have first := printable entry List.mem_cons_self
      have others : ∀ entry ∈ rest, entry.Printable unit :=
        fun other member => printable other (List.mem_cons_of_mem entry member)
      -- What the first change and then the others leave is what all of them leave.
      have noted : ∀ change, (declared.map fun entry => entry.note change).map
          (Variable.after (Entry.changes unit now rest)) =
            declared.map (Variable.after (change :: Entry.changes unit now rest)) := by
        intro change
        rw [List.map_map]
        exact List.map_congr_left fun entry _ => entry.note_after change _
      cases entry with
      | time count =>
          obtain ⟨least, later⟩ := List.pairwise_cons.mp ordered
          have moved := reads_time unit declared now count first positive
            (ahead count List.mem_cons_self)
          have following := ih declared (count * unit) others later
            fun next member => Nat.mul_le_mul_right unit (least next member)
          exact reads_append moved following
      | vector levels identifier =>
          obtain ⟨nonempty, valid, _⟩ := first
          have heard := reads_vector unit declared now levels identifier ⟨nonempty, valid⟩
          have following := ih (declared.map fun entry => entry.note ⟨now, identifier, levels⟩) now
            others ordered ahead
          rw [noted] at following
          exact reads_append heard following
      | single level identifier =>
          obtain ⟨valid, named, _⟩ := first
          have heard := reads_single unit declared now level identifier valid named
          have following := ih (declared.map fun entry => entry.note ⟨now, identifier, [level]⟩) now
            others ordered ahead
          rw [noted] at following
          exact reads_append heard following

theorem reads_document (document : Document) (printable : document.Printable unit) :
    Reads {} document.words
      (recording unit ((document.declarations.map Declaration.entry).map
        (Variable.after (Entry.changes unit 0 document.entries)))
        (Entry.ending unit 0 document.entries)) := by
  have positive : 0 < unit := by
    obtain ⟨_, _, _, _, _, _, positive, _⟩ := (TimeUnit.of_chars_iff _ _).mp printable.timescale
    exact positive
  have scaled := reads_timescale unit [] [] document.unit printable.timescale
  have declared := reads_declarations unit [] document.declarations printable.declarations
  have ended := reads_definitions_end unit (document.declarations.map Declaration.entry)
  have recorded := reads_entries unit (document.declarations.map Declaration.entry) 0
    document.entries positive printable.entries printable.ordered fun _ _ => Nat.zero_le _
  exact reads_append (reads_append (reads_append scaled declared) ended) recorded

end Progress

/-- A dump that is written down loads, and with what was written: the variables in order
under their dotted names, each with the changes of its identifier at the timestamps in
front of them. -/
theorem load_printed (document : Document) (unit : Nat) (text : String)
    (printable : document.Printable unit) (layout : Text.Layout document.words text.toList) :
    ofText text = .ok (document.waveform unit) := by
  have texts : (Token.ofText text.toList).map Token.text = document.words := by
    rw [Token.text_of_text]
    exact Text.words_layout document.words text.toList layout (document.words_solid unit printable)
  have read := Progress.reads_document unit document printable (Token.ofText text.toList) texts
  have signals : (((document.declarations.map Declaration.entry).map
      (Variable.after (Entry.changes unit 0 document.entries))).map fun entry =>
        Signal.mk entry.name entry.width entry.newest.reverse) = (document.waveform unit).signals := by
    rw [List.map_map, List.map_map]
    apply List.map_congr_left
    intro declaration _
    simp [Variable.after, Declaration.entry, dottedName]
  rw [ofText, ofTokens, read]
  exact congrArg (fun signals => Except.ok
    (Waveform.mk unit signals (Entry.ending unit 0 document.entries))) signals

/-- A dump with a repeated scope, two variables that share an identifier which looks like
a timestamp, and a change in front of the first timestamp. -/
def nested : Document where
  unit := "1 Ns".toList
  declarations := [
    ⟨["top".toList, "top".toList], "reg".toList, 4, "#0".toList, "bus".toList⟩,
    ⟨[], "reg".toList, 1, "#0".toList, "$var".toList⟩]
  entries := [.vector "z1".toList "#0".toList, .time 5, .single 'X' "#0".toList, .time 5,
    .vector "011".toList "b".toList]

def nestedLines : List String :=
  ["$timescale 1\tNs $end", "$scope module top $end $scope module top $end\r",
    "  $var reg 4 #0 bus $end", "$upscope $end $upscope $end", "$var reg 1 #0 $var $end",
    "$enddefinitions $end", "bz1", "#0 #5", "X#0 #5 b011 b"]

def nestedText : List Char :=
  nestedLines.flatMap fun line => line.toList ++ ['\n']

theorem nested_printable : nested.Printable 1000000 where
  timescale := by
    apply (TimeUnit.of_chars_iff _ _).mpr
    exact ⟨by decide, 1, 1000000, by decide, by decide, by decide, by decide, by decide⟩
  declarations := by
    intro declaration member
    simp only [nested, List.mem_cons, List.not_mem_nil, or_false] at member
    rcases member with rfl | rfl
    · constructor <;> decide
    · constructor <;> decide
  entries := by decide
  ordered := by decide

theorem nested_loads :
    nested.Printable 1000000 ∧ Text.Layout nested.words (String.ofList nestedText).toList ∧
      ofText (String.ofList nestedText) = .ok {
        fsPerUnit := 1000000
        signals := [
          ⟨"top.top.bus", 4, [⟨0, ⟨[.high, .floating, .floating, .floating]⟩⟩,
            ⟨5000000, ⟨[.unknown, .unknown, .unknown, .unknown]⟩⟩]⟩,
          ⟨"$var", 1, [⟨0, ⟨[.high]⟩⟩, ⟨5000000, ⟨[.unknown]⟩⟩]⟩]
        endTime := 5000000 } := by
  have words : nested.words = Text.words nestedText := by decide +kernel
  have layout : Text.Layout nested.words (String.ofList nestedText).toList := by
    rw [String.toList_ofList, words]
    exact Text.layout_of_words nestedText
  refine ⟨nested_printable, layout, ?_⟩
  rw [load_printed nested 1000000 _ nested_printable layout]
  rfl

end CoreBench.Waveform
