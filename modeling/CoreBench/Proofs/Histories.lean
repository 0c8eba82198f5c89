import CoreBench.Proofs.Recording

/-!
The histories of a loaded waveform are in the order of time. What one token can do to the
loader is said once; the invariant of the loader follows from it.
-/

namespace CoreBench.Waveform

theorem history_append (before after : List Change) (identifier : List Char) (width : Nat) :
    historyOf (before ++ after) identifier width =
      historyOf before identifier width ++ historyOf after identifier width := by
  simp [historyOf]

/-- The loader has not left the definitions. -/
def Place.inHeader : Place → Bool
  | .header => true
  | .inside _ _ _ inHeader => inHeader
  | .changes | .vector _ _ | .real => false

namespace Progress

/-- The changes that a token writes. -/
def written (progress : Progress) (token : Token) : List Change :=
  match progress.place, token.text with
  | .vector value _, identifier => [⟨progress.time, identifier, value.tail⟩]
  | .changes, level :: identifier =>
      if level ∈ markers then [] else [⟨progress.time, identifier, [level]⟩]
  | _, _ => []

def writtenBy : Progress → List Token → List Change
  | _, [] => []
  | progress, token :: rest =>
      progress.written token ++
        match progress.step token with
        | .ok next => next.writtenBy rest
        | .error _ => []

/-- What a token can do, with the changes that it writes. -/
inductive Moves (progress : Progress) : List Change → Progress → Prop where
  | turn (place : Place) (ahead : place.inHeader = true → progress.place.inHeader = true) :
      Moves progress [] { progress with place }
  | define (fsPerUnit : Nat) (scopes : List (List Char)) (added : List Variable)
      (early : progress.place.inHeader = true) (unrecorded : ∀ entry ∈ added, entry.newest = []) :
      Moves progress []
        { progress with place := .header, fsPerUnit, scopes, declared := progress.declared ++ added }
  | stamp (time : Nat) (late : progress.place.inHeader = false)
      (scaled : progress.fsPerUnit ∣ time) (order : progress.time ≤ time)
      (fits : time < wordLimit) :
      Moves progress [] { progress with time, endTime := time }
  | change (identifier levels : List Char) :
      Moves progress [⟨progress.time, identifier, levels⟩]
        (progress.note ⟨progress.time, identifier, levels⟩)

theorem close_header_moves (progress next : Progress) (keyword : List Char) (line : Nat)
    (body : List (List Char)) (early : progress.place.inHeader = true)
    (closed : progress.closeHeader keyword line body = .ok next) : Moves progress [] next := by
  have define : ∀ fsPerUnit scopes,
      Moves progress [] { progress with place := .header, fsPerUnit, scopes } := by
    intro fsPerUnit scopes
    have nothing := Moves.define fsPerUnit scopes [] early (by simp)
    rwa [List.append_nil] at nothing
  rw [closeHeader] at closed
  split at closed
  · split at closed
    · cases closed
      exact define 1 progress.scopes
    · split at closed
      · cases closed
        exact define _ progress.scopes
      · cases closed
  split at closed
  · cases closed
    exact define progress.fsPerUnit _
  split at closed
  · cases closed
    exact define progress.fsPerUnit _
  split at closed
  · rw [declare.eq_def] at closed
    split at closed
    · split at closed
      · cases closed
      · cases closed
        exact .define _ _ [_] early (by simp)
    · cases closed
  split at closed
  · cases closed
    exact .turn .changes (by simp [Place.inHeader])
  · cases closed
    exact .turn .header (fun _ => early)

theorem Moves.still (progress : Progress) : Moves progress [] progress :=
  Moves.turn progress.place fun early => early

theorem written_marked (progress : Progress) (token : Token) (mark : Char) (rest : List Char)
    (here : progress.place = .changes) (text : token.text = mark :: rest)
    (marked : mark ∈ markers) : progress.written token = [] := by
  rw [written, here, text]
  exact if_pos marked

theorem change_moves (progress next : Progress) (token : Token) (here : progress.place = .changes)
    (changed : progress.change token.line token.text = .ok next) :
    Moves progress (progress.written token) next := by
  rw [change.eq_def] at changed
  split at changed
  case h_1 rest text =>
      rw [written_marked progress token _ _ here text (by decide)]
      split at changed <;> cases changed
      · exact .still progress
      · exact .turn _ (by simp [Place.inHeader])
  case h_2 digits text =>
      rw [written_marked progress token _ _ here text (by decide)]
      obtain ⟨count, _, fits, order, rfl⟩ := (advance_ok_iff _ _ _ _).mp changed
      exact .stamp _ (by rw [here, Place.inHeader]) (Nat.dvd_mul_left _ _) order fits
  case h_3 rest text | h_4 rest text | h_5 rest text | h_6 rest text =>
      rw [written_marked progress token _ _ here text (by decide)]
      cases changed
      exact .turn _ (by simp [Place.inHeader])
  case h_7 => cases changed
  case h_8 level identifier _ _ _ _ _ _ _ text =>
      have unmarked : level ∉ markers := by simp_all [markers]
      have writes : progress.written token = [⟨progress.time, identifier, [level]⟩] := by
        rw [written, here, text]
        exact if_neg unmarked
      obtain ⟨_, rfl⟩ := (record_ok_iff _ _ _ _ _).mp changed
      rw [writes]
      exact .change _ _
  case h_9 text =>
      have writes : progress.written token = [] := by rw [written, here, text]
      rw [writes]
      cases changed
      exact .still progress

theorem step_moves (progress next : Progress) (token : Token)
    (stepped : progress.step token = .ok next) :
    Moves progress (progress.written token) next := by
  rw [step] at stepped
  cases here : progress.place with
  | header =>
      have writes : progress.written token = [] := by rw [written, here]
      rw [writes]
      simp only [here] at stepped
      split at stepped <;> cases stepped
      exact .turn _ (fun _ => by rw [here, Place.inHeader])
  | inside keyword line body inHeader =>
      have writes : progress.written token = [] := by rw [written, here]
      rw [writes]
      simp only [here] at stepped
      split at stepped
      · cases stepped
        exact .turn _ (fun early => by rwa [here])
      · cases inHeader with
        | true => exact close_header_moves _ _ _ _ _ (by rw [here, Place.inHeader]) stepped
        | false =>
            cases stepped
            exact .turn _ (by simp [Place.inHeader])
  | changes =>
      simp only [here] at stepped
      exact change_moves progress next token here stepped
  | vector value line =>
      have writes : progress.written token = [⟨progress.time, token.text, value.tail⟩] := by
        rw [written, here]
      simp only [here] at stepped
      obtain ⟨_, rfl⟩ := (record_ok_iff _ _ _ _ _).mp stepped
      rw [writes]
      exact .change _ _
  | real =>
      have writes : progress.written token = [] := by rw [written, here]
      rw [writes]
      simp only [here] at stepped
      cases stepped
      exact .turn _ (by simp [Place.inHeader])

/-- How the loader stands to the changes that have been written. Until the end of the
definitions there are none, so the time unit can still change. -/
structure Recorded (changes : List Change) (progress : Progress) : Prop where
  fresh : progress.place.inHeader = true → changes = [] ∧ progress.time = 0
  ended : progress.endTime = progress.time
  fits : progress.time < wordLimit
  scaled : progress.fsPerUnit ∣ progress.time
  ordered : changes.Pairwise fun earlier later => earlier.time ≤ later.time
  past : ∀ change ∈ changes, change.time ≤ progress.time ∧ progress.fsPerUnit ∣ change.time
  histories : ∀ entry ∈ progress.declared,
    entry.newest.reverse = historyOf changes entry.identifier entry.width

theorem recorded_empty : Recorded [] {} where
  fresh _ := ⟨rfl, rfl⟩
  ended := rfl
  fits := by decide
  scaled := Nat.dvd_zero 1
  ordered := .nil
  past := by simp
  histories := by simp

theorem note_history (changes : List Change) (change : Change) (entry : Variable)
    (history : entry.newest.reverse = historyOf changes entry.identifier entry.width) :
    (entry.note change).newest.reverse =
      historyOf (changes ++ [change]) (entry.note change).identifier (entry.note change).width := by
  rw [history_append]
  by_cases own : entry.identifier = change.identifier
  · have noted : entry.note change = { entry with newest := change.sample entry.width :: entry.newest } :=
      if_pos own
    have heard : historyOf [change] entry.identifier entry.width = [change.sample entry.width] := by
      simp [historyOf, own]
    rw [noted, heard, List.reverse_cons, history]
  · have foreign : change.identifier ≠ entry.identifier := Ne.symm own
    have noted : entry.note change = entry := if_neg own
    have heard : historyOf [change] entry.identifier entry.width = [] := by
      simp [historyOf, foreign]
    rw [noted, heard, List.append_nil, history]

theorem moves_recorded (progress next : Progress) (before written : List Change)
    (moves : Moves progress written next) (recorded : Recorded before progress) :
    Recorded (before ++ written) next := by
  cases moves with
  | turn place ahead =>
      rw [List.append_nil]
      exact { recorded with fresh := fun early => recorded.fresh (ahead early) }
  | define fsPerUnit scopes added early unrecorded =>
      -- Nothing has been written yet, so any time unit and any new variable will do.
      obtain ⟨rfl, start⟩ := recorded.fresh early
      refine ⟨fun _ => ⟨rfl, start⟩, recorded.ended, recorded.fits, ?_, .nil, by simp, ?_⟩
      · rw [start]
        exact Nat.dvd_zero fsPerUnit
      · intro entry member
        rcases List.mem_append.mp member with old | new
        · exact recorded.histories entry old
        · rw [unrecorded entry new]
          rfl
  | stamp time late scaled order fits =>
      rw [List.append_nil]
      refine ⟨?_, rfl, fits, scaled, recorded.ordered, ?_, recorded.histories⟩
      · intro early
        rw [late] at early
        cases early
      · intro change member
        obtain ⟨bound, divides⟩ := recorded.past change member
        exact ⟨Nat.le_trans bound order, divides⟩
  | change identifier levels =>
      refine ⟨by simp [note, Place.inHeader], recorded.ended, recorded.fits, recorded.scaled,
        ?_, ?_, ?_⟩
      · rw [List.pairwise_append]
        refine ⟨recorded.ordered, List.pairwise_singleton _ _, ?_⟩
        rintro earlier member later (_ | ⟨_, ⟨⟩⟩)
        exact (recorded.past earlier member).1
      · intro change member
        rcases List.mem_append.mp member with old | new
        · exact recorded.past change old
        · obtain rfl := List.mem_singleton.mp new
          exact ⟨Nat.le_refl _, recorded.scaled⟩
      · intro entry member
        obtain ⟨entry, old, rfl⟩ := List.mem_map.mp member
        exact note_history before _ entry (recorded.histories entry old)

theorem run_recorded (progress final : Progress) (before : List Change) (tokens : List Token)
    (ran : tokens.foldlM step progress = .ok final) (recorded : Recorded before progress) :
    Recorded (before ++ progress.writtenBy tokens) final := by
  induction tokens generalizing progress before with
  | nil =>
      cases ran
      rwa [writtenBy, List.append_nil]
  | cons token rest ih =>
      -- On the tokens: one step keeps the invariant, and the rest goes on from there.
      obtain ⟨next, stepped, later⟩ := (run_cons_ok_iff token rest progress final).mp ran
      have through := ih next _ later (moves_recorded progress next before _
        (step_moves progress next token stepped) recorded)
      rwa [writtenBy, stepped, ← List.append_assoc]

end Progress

/-- The last of some changes up to a time, as the value of a signal. -/
def latest (changes : List Change) (identifier : List Char) (width time : Nat) : Bus :=
  match (changes.filter fun change =>
    change.identifier = identifier ∧ change.time ≤ time).getLast? with
  | some change => change.value width
  | none => Bus.filled width .unknown

@[simp] theorem width_latest (changes : List Change) (identifier : List Char) (width time : Nat) :
    (latest changes identifier width time).width = width := by
  rw [latest]
  split <;> simp

theorem history_sorted (changes : List Change) (identifier : List Char) (width : Nat)
    (ordered : changes.Pairwise fun earlier later => earlier.time ≤ later.time) :
    (historyOf changes identifier width).Pairwise fun earlier later => earlier.time ≤ later.time := by
  rw [historyOf, List.pairwise_map]
  exact ordered.filter _

/-- In a sorted history bisection finds the last change up to a time. -/
theorem value_at_latest (signal : Signal) (changes : List Change) (identifier : List Char)
    (history : signal.history = historyOf changes identifier signal.width)
    (ordered : changes.Pairwise fun earlier later => earlier.time ≤ later.time) (time : Nat) :
    signal.valueAt time = latest changes identifier signal.width time := by
  have sorted : signal.history.Pairwise fun earlier later => earlier.time ≤ later.time := by
    rw [history]
    exact history_sorted changes identifier signal.width ordered
  -- Bisection takes the samples up to the time, which are those of the changes up to it.
  have found : signal.history.take (signal.samplesUpTo time) =
      (changes.filter fun change => change.identifier = identifier ∧ change.time ≤ time).map
        fun change => change.sample signal.width := by
    rw [signal.take_samples_up_to time sorted, history, historyOf, List.filter_map,
      List.filter_filter]
    congr 2
    funext change
    simp [Change.sample, Bool.and_comm]
  rw [Signal.valueAt, found, List.getLast?_map, latest]
  cases (changes.filter fun change =>
      change.identifier = identifier ∧ change.time ≤ time).getLast? with
  | none => rfl
  | some change => rfl

theorem finish_ok (progress : Progress) (waveform : Waveform)
    (finished : progress.finish = .ok waveform) :
    waveform = {
      fsPerUnit := progress.fsPerUnit
      signals := progress.declared.map fun entry => ⟨entry.name, entry.width, entry.newest.reverse⟩
      endTime := progress.endTime } := by
  rw [Progress.finish] at finished
  split at finished <;> cases finished <;> rfl

/-- The histories of a loaded dump are in the order of time, and its end is a time of 64
bits. -/
theorem loaded_ordered (text : String) (waveform : Waveform) (loaded : ofText text = .ok waveform) :
    (∀ signal ∈ waveform.signals,
      signal.history.Pairwise fun earlier later => earlier.time ≤ later.time) ∧
      waveform.endTime < wordLimit := by
  obtain ⟨final, ran, finished⟩ := (of_tokens_ok_iff _ _).mp loaded
  have recorded := Progress.run_recorded {} final [] _ ran Progress.recorded_empty
  obtain rfl := finish_ok final waveform finished
  constructor
  · intro signal member
    obtain ⟨entry, declared, rfl⟩ := List.mem_map.mp member
    dsimp only
    rw [recorded.histories entry declared]
    exact history_sorted _ _ _ recorded.ordered
  · dsimp only
    rw [recorded.ended]
    exact recorded.fits

end CoreBench.Waveform
