import CoreBench.Proofs.BusTexts
import CoreBench.Waveform.Dump

/-!
What a loaded waveform records. The changes of a dump are listed as its tokens write
them; every signal holds those of its identifier, and its value at a time is the last
one of them up to that time.
-/

namespace CoreBench.Waveform

/-- A change as a dump writes it, with the character of the top line first. -/
structure Change where
  time : Nat
  identifier : List Char
  levels : List Char
  deriving DecidableEq, Repr

namespace Change

/-- The change is of at least one line, and every character is a level. -/
def Readable (change : Change) : Prop :=
  change.levels ≠ [] ∧ ∀ c ∈ change.levels, (Level.ofChar? c).isSome

/-- The level of the lines above the top one of a change: its own if that is unknown or
floating, and low otherwise. -/
def above (change : Change) : Level :=
  match change.levels.head?.bind Level.ofChar? with
  | some .unknown => .unknown
  | some .floating => .floating
  | _ => .low

def line (change : Change) (index : Nat) : Level :=
  match change.levels.reverse[index]? with
  | some c => (Level.ofChar? c).getD .unknown
  | none => change.above

def value (change : Change) (width : Nat) : Bus :=
  ⟨(List.range width).map change.line⟩

def sample (change : Change) (width : Nat) : Sample :=
  ⟨change.time, change.value width⟩

def spelled (change : Change) : Bus :=
  ⟨change.levels.reverse.map fun c => (Level.ofChar? c).getD .unknown⟩

@[simp] theorem width_value (change : Change) (width : Nat) : (change.value width).width = width := by
  simp [value, Bus.width]

end Change

/-- What some changes leave behind in the history of a signal. -/
def historyOf (changes : List Change) (identifier : List Char) (width : Nat) : List Sample :=
  (changes.filter fun change => change.identifier = identifier).map fun change => change.sample width

theorem read_value (change : Change) (value : Bus) :
    (Bus.ofChars? change.levels).filter (fun value => 0 < value.width) = some value ↔
      change.Readable ∧
        value = change.spelled := by
  rw [Option.filter_eq_some_iff, Bus.of_chars_iff, decide_eq_true_eq]
  constructor
  · rintro ⟨⟨valid, rfl⟩, wide⟩
    refine ⟨⟨?_, valid⟩, rfl⟩
    rintro empty
    simp [empty, Bus.width] at wide
  · rintro ⟨⟨nonempty, valid⟩, rfl⟩
    refine ⟨⟨valid, rfl⟩, ?_⟩
    simpa [Change.spelled, Bus.width, List.length_pos_iff] using nonempty

theorem Change.level_above_spelled (change : Change) (readable : change.Readable) :
    levelAbove change.spelled = change.above := by
  obtain ⟨nonempty, valid⟩ := readable
  obtain ⟨top, rest, same⟩ := List.exists_cons_of_ne_nil nonempty
  obtain ⟨level, found⟩ := Option.isSome_iff_exists.mp (valid top (by simp [same]))
  have last : change.spelled.levels.getLast? = some level := by simp [spelled, same, found]
  have first : change.levels.head?.bind Level.ofChar? = some level := by simp [same, found]
  cases level <;> simp only [levelAbove, last, above, first]

/-- Extending the value of a change gives what the change says of each line. -/
theorem Change.extend_spelled (change : Change) (width : Nat) (readable : change.Readable) :
    extend change.spelled width = change.value width := by
  rw [extend, change.level_above_spelled readable]
  have wide : change.spelled.width = change.levels.reverse.length := by simp [spelled, Bus.width]
  have same : (change.spelled.resize width change.above).levels =
      (List.range width).map change.line := by
    apply List.ext_getElem?
    intro index
    rw [List.getElem?_map]
    rcases Nat.lt_or_ge index width with small | large
    · rw [List.getElem?_range small, Option.map_some, line]
      -- Lines of the value itself, and lines above its top one.
      rcases Nat.lt_or_ge index change.spelled.width with within | beyond
      · rw [Bus.resize_kept _ within small, spelled, List.getElem?_map]
        rw [wide] at within
        rw [List.getElem?_eq_getElem within, Option.map_some]
      · rw [Bus.resize_filled _ beyond small]
        rw [wide] at beyond
        rw [List.getElem?_eq_none beyond]
    · have full := change.spelled.width_resize width change.above
      rw [List.getElem?_eq_none (by rwa [← Bus.width, full]),
        List.getElem?_eq_none (by rwa [List.length_range]), Option.map_none]
  exact congrArg Bus.mk same

/-- The variable after a change. -/
def Variable.note (entry : Variable) (change : Change) : Variable :=
  if entry.identifier = change.identifier then
    { entry with newest := change.sample entry.width :: entry.newest }
  else entry

namespace Progress

/-- The characters at the start of a token that is no change of a single line. -/
def markers : List Char :=
  ['$', '#', 'b', 'B', 'r', 'R']

def note (progress : Progress) (change : Change) : Progress :=
  { progress with place := .changes, declared := progress.declared.map fun entry => entry.note change }

theorem note_undeclared (progress : Progress) (change : Change)
    (undeclared : ∀ entry ∈ progress.declared, entry.identifier ≠ change.identifier) :
    progress.note change = { progress with place := .changes } := by
  have same : progress.declared.map (fun entry => entry.note change) = progress.declared.map id := by
    apply List.map_congr_left
    intro entry member
    exact if_neg (undeclared entry member)
  rw [note, same, List.map_id]

/-- A change is recorded unless it is of a declared identifier and not readable. -/
theorem record_ok_iff (progress next : Progress) (line : Nat) (identifier levels : List Char) :
    progress.record line identifier levels = .ok next ↔
      ((∃ entry ∈ progress.declared, entry.identifier = identifier) →
        (Change.mk progress.time identifier levels).Readable) ∧
        next = progress.note ⟨progress.time, identifier, levels⟩ := by
  have known : (progress.declared.any fun entry => entry.identifier = identifier) = true ↔
      ∃ entry ∈ progress.declared, entry.identifier = identifier := by
    simp
  rw [record]
  -- Only the changes of declared identifiers are read.
  by_cases declared : ∃ entry ∈ progress.declared, entry.identifier = identifier
  · rw [if_pos (known.mpr declared)]
    have read := read_value ⟨progress.time, identifier, levels⟩
    cases found : (Bus.ofChars? levels).filter fun value => 0 < value.width with
    | none =>
        constructor
        · rintro ⟨⟩
        · rintro ⟨readable, _⟩
          have value := (read _).mpr ⟨readable declared, rfl⟩
          rw [found] at value
          cases value
    | some value =>
        obtain ⟨readable, rfl⟩ := (read value).mp found
        have noted : (progress.declared.map fun entry =>
            if entry.identifier = identifier then
              { entry with newest :=
                  ⟨progress.time, extend (Change.mk progress.time identifier levels).spelled entry.width⟩ ::
                    entry.newest }
            else entry) =
            progress.declared.map fun entry => entry.note ⟨progress.time, identifier, levels⟩ := by
          simp only [Change.extend_spelled _ _ readable]
          rfl
        simp only [noted, Except.ok.injEq]
        constructor
        · rintro rfl
          exact ⟨fun _ => readable, rfl⟩
        · rintro ⟨_, rfl⟩
          rfl
  · rw [if_neg (mt known.mp declared)]
    have undeclared : ∀ entry ∈ progress.declared, entry.identifier ≠ identifier :=
      fun entry member same => declared ⟨entry, member, same⟩
    rw [note_undeclared progress ⟨progress.time, identifier, levels⟩ undeclared, Except.ok.injEq]
    constructor
    · rintro rfl
      exact ⟨fun present => absurd present declared, rfl⟩
    · rintro ⟨_, rfl⟩
      rfl

/-- A timestamp is taken if its time is not before the last one and can be counted. -/
theorem advance_ok_iff (progress next : Progress) (line : Nat) (digits : List Char) :
    progress.advance line digits = .ok next ↔
      ∃ count, Text.unsigned? 64 digits = some count ∧ count * progress.fsPerUnit < wordLimit ∧
        progress.time ≤ count * progress.fsPerUnit ∧
        next = { progress with
          time := count * progress.fsPerUnit, endTime := count * progress.fsPerUnit } := by
  rw [advance]
  cases Text.unsigned? 64 digits with
  | none => simp
  | some count =>
      simp only [Option.some.injEq, exists_eq_left']
      by_cases large : wordLimit ≤ count * progress.fsPerUnit
      · simp only [large, ↓reduceIte, reduceCtorEq, false_iff]
        omega
      · by_cases early : count * progress.fsPerUnit < progress.time
        · simp only [large, early, ↓reduceIte, reduceCtorEq, false_iff]
          omega
        · simp only [large, early, ↓reduceIte, Except.ok.injEq]
          constructor
          · rintro rfl
            exact ⟨Nat.lt_of_not_le large, Nat.le_of_not_lt early, rfl⟩
          · rintro ⟨_, _, rfl⟩
            rfl

theorem run_cons_ok_iff (token : Token) (tokens : List Token) (progress final : Progress) :
    (token :: tokens).foldlM step progress = .ok final ↔
      ∃ next, progress.step token = .ok next ∧ tokens.foldlM step next = .ok final := by
  rw [List.foldlM_cons]
  cases progress.step token <;> simp [bind, Except.bind]

theorem run_append_ok_iff (front back : List Token) (progress final : Progress) :
    (front ++ back).foldlM step progress = .ok final ↔
      ∃ middle, front.foldlM step progress = .ok middle ∧ back.foldlM step middle = .ok final := by
  rw [List.foldlM_append]
  cases front.foldlM step progress <;> simp [bind, Except.bind]

theorem run_concat_ok_iff (tokens : List Token) (token : Token) (progress final : Progress) :
    (tokens ++ [token]).foldlM step progress = .ok final ↔
      ∃ middle, tokens.foldlM step progress = .ok middle ∧ middle.step token = .ok final := by
  rw [run_append_ok_iff]
  simp

end Progress

theorem of_tokens_ok_iff (tokens : List Token) (waveform : Waveform) :
    ofTokens tokens = .ok waveform ↔
      ∃ final, tokens.foldlM Progress.step {} = .ok final ∧ final.finish = .ok waveform := by
  rw [ofTokens]
  cases tokens.foldlM Progress.step {} <;> simp [bind, Except.bind]

end CoreBench.Waveform
