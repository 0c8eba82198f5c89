import CoreBench.Proofs.Histories
import CoreBench.Proofs.Loading
import CoreBench.Proofs.Tokens
import Mathlib.Data.List.Forall2

/-!
A dump that goes on does not change what it has recorded. Where a dump may end its definitions
are over, and from then on the loader only adds changes, none of them before the time that it
has reached. So the value of a signal at an earlier time stays what it was.
-/

namespace CoreBench

/-- Samples behind a time do not count for the value at it. -/
theorem Signal.value_at_append (signal longer : Signal) (added : List Sample) (time : Nat)
    (width : longer.width = signal.width) (history : longer.history = signal.history ++ added)
    (ordered : longer.history.Pairwise fun earlier later => earlier.time ≤ later.time)
    (late : ∀ sample ∈ added, time < sample.time) :
    longer.valueAt time = signal.valueAt time := by
  have front : signal.history.Pairwise fun earlier later => earlier.time ≤ later.time := by
    rw [history] at ordered
    exact (List.pairwise_append.mp ordered).1
  have none : (added.filter fun sample => sample.time ≤ time) = [] := by
    rw [List.filter_eq_nil_iff]
    intro sample member passes
    exact Nat.not_le_of_lt (late sample member) (of_decide_eq_true passes)
  rw [valueAt, valueAt, longer.take_samples_up_to time ordered, signal.take_samples_up_to time front,
    history, List.filter_append, none, List.append_nil, width]

/-- The signal is the other one, recorded for longer: its history only has more samples, none
of them before the time at which the other recording ends. -/
structure Signal.Prolongs (ending : Nat) (signal longer : Signal) : Prop where
  name : longer.name = signal.name
  width : longer.width = signal.width
  history : ∃ added, longer.history = signal.history ++ added ∧ ∀ sample ∈ added, ending ≤ sample.time
  past : ∀ time < ending, longer.valueAt time = signal.valueAt time

/-- The second waveform is the first one, recorded for longer. -/
structure Waveform.Prolongs (shorter longer : Waveform) : Prop where
  fsPerUnit : longer.fsPerUnit = shorter.fsPerUnit
  endTime : shorter.endTime ≤ longer.endTime
  signals : List.Forall₂ (Signal.Prolongs shorter.endTime) shorter.signals longer.signals

namespace Waveform

theorem Variable.after_append (before changes : List Change) (entry : Variable) :
    (entry.after before).after changes = entry.after (before ++ changes) := by
  simp [after, history_append]

theorem Variable.after_prolongs (entry : Variable) (changes : List Change) (ending : Nat)
    (recent : ∀ change ∈ changes, ending ≤ change.time)
    (ordered : (entry.after changes).newest.reverse.Pairwise fun earlier later =>
      earlier.time ≤ later.time) :
    Signal.Prolongs ending ⟨entry.name, entry.width, entry.newest.reverse⟩
      ⟨entry.name, entry.width, (entry.after changes).newest.reverse⟩ := by
  have history : (entry.after changes).newest.reverse =
      entry.newest.reverse ++ historyOf changes entry.identifier entry.width := by
    rw [after, List.reverse_append, List.reverse_reverse]
  have late : ∀ sample ∈ historyOf changes entry.identifier entry.width, ending ≤ sample.time := by
    intro sample recorded
    obtain ⟨change, heard, rfl⟩ := List.mem_map.mp recorded
    exact recent change (List.mem_filter.mp heard).1
  refine ⟨rfl, rfl, ⟨_, history, late⟩, ?_⟩
  intro time early
  exact Signal.value_at_append _ _ _ time rfl history ordered
    fun sample member => Nat.lt_of_lt_of_le early (late sample member)

namespace Progress

/-- The loader has come from an earlier state behind the definitions, through some changes. -/
structure GoesOn (changes : List Change) (earlier later : Progress) : Prop where
  late : later.place.inHeader = false
  scale : later.fsPerUnit = earlier.fsPerUnit
  order : earlier.time ≤ later.time
  recent : ∀ change ∈ changes, earlier.time ≤ change.time
  declared : later.declared = earlier.declared.map (Variable.after changes)

theorem GoesOn.refl (progress : Progress) (late : progress.place.inHeader = false) :
    progress.GoesOn [] progress where
  late := late
  scale := rfl
  order := Nat.le_refl _
  recent := by simp
  declared := by
    rw [List.map_congr_left fun entry _ => entry.after_nil]
    exact (List.map_id' _).symm

theorem GoesOn.trans {before changes : List Change} {first second third : Progress}
    (one : first.GoesOn before second) (two : second.GoesOn changes third) :
    first.GoesOn (before ++ changes) third where
  late := two.late
  scale := two.scale.trans one.scale
  order := Nat.le_trans one.order two.order
  recent change member := by
    rcases List.mem_append.mp member with old | new
    · exact one.recent change old
    · exact Nat.le_trans one.order (two.recent change new)
  declared := by
    rw [two.declared, one.declared, List.map_map]
    exact List.map_congr_left fun entry _ => entry.after_append before changes

theorem moves_goes_on (progress next : Progress) (written : List Change)
    (moves : Moves progress written next) (late : progress.place.inHeader = false) :
    progress.GoesOn written next := by
  have again := GoesOn.refl progress late
  cases moves with
  | turn place ahead =>
      have behind : place.inHeader = false := by
        apply Bool.eq_false_iff.mpr
        intro early
        rw [ahead early] at late
        cases late
      exact { again with late := behind }
  | define fsPerUnit scopes added early unrecorded =>
      rw [early] at late
      cases late
  | stamp time late scaled order fits => exact { again with order }
  | change identifier levels =>
      refine { again with late := rfl, recent := ?_, declared := ?_ }
      · intro change member
        obtain rfl := List.mem_singleton.mp member
        exact Nat.le_refl _
      · apply List.map_congr_left
        intro entry _
        rw [← Variable.note_after, Variable.after_nil]

theorem run_goes_on (progress final : Progress) (tokens : List Token)
    (late : progress.place.inHeader = false)
    (ran : tokens.foldlM step progress = .ok final) :
    progress.GoesOn (progress.writtenBy tokens) final := by
  induction tokens generalizing progress with
  | nil =>
      cases ran
      exact .refl _ late
  | cons token tokens ih =>
      obtain ⟨next, stepped, rest⟩ := (run_cons_ok_iff token tokens progress final).mp ran
      have once := moves_goes_on progress next _ (step_moves progress next token stepped) late
      rw [writtenBy, stepped]
      exact once.trans (ih next once.late rest)

end Progress

theorem finish_late (progress : Progress) (waveform : Waveform)
    (finished : progress.finish = .ok waveform) : progress.place.inHeader = false := by
  rw [Progress.finish] at finished
  cases here : progress.place with
  | changes | real | vector => rfl
  | header =>
      rw [here] at finished
      cases finished
  | inside keyword line body inHeader =>
      rw [here] at finished
      cases finished

/-- What is recorded stays when lines are added to a dump. -/
theorem added_lines_prolong (text more : String) (shorter longer : Waveform)
    (front : load (.ok text) = .ok shorter)
    (whole : load (.ok (text ++ "\n" ++ more)) = .ok longer) : shorter.Prolongs longer := by
  have ordered := (loaded_ordered _ longer whole).1
  have parted : (text ++ "\n" ++ more).toList = text.toList ++ '\n' :: more.toList := by simp
  obtain ⟨cut, early, ended⟩ := (of_tokens_ok_iff _ _).mp front
  obtain ⟨final, ran, finished⟩ := (of_tokens_ok_iff _ _).mp whole
  rw [parted, Token.of_text_append_line, Progress.run_append_ok_iff] at ran
  obtain ⟨middle, again, late⟩ := ran
  cases early.symm.trans again
  have first := Progress.run_recorded {} cut [] _ early Progress.recorded_empty
  have second := Progress.run_recorded cut final _ _ late first
  have goes := Progress.run_goes_on cut final _ (finish_late cut shorter ended) late
  obtain rfl := finish_ok cut shorter ended
  obtain rfl := finish_ok final longer finished
  refine ⟨goes.scale, ?_, ?_⟩
  · dsimp only
    rw [first.ended, second.ended]
    exact goes.order
  · dsimp only at ordered ⊢
    rw [goes.declared, List.map_map] at ordered ⊢
    rw [List.forall_mem_map] at ordered
    rw [List.forall₂_map_left_iff, List.forall₂_map_right_iff, List.forall₂_same]
    intro entry member
    apply entry.after_prolongs
    · rw [first.ended]
      exact goes.recent
    · exact ordered entry member

/-- A dump that ends with a real value, in front of its identifier. -/
def openDump : String :=
  "$var reg 2 ! a $end $enddefinitions $end #3 b01 ! r1.5"

/-- The identifier of the real value, and then a change at the time at which the dump ended. -/
def openDumpRest : String :=
  "! b11 ! #4 0!"

def openDumpWaveform : Waveform where
  fsPerUnit := 1
  signals := [⟨"a", 2, [⟨3, ⟨[.high, .low]⟩⟩]⟩]
  endTime := 3

def openDumpProlonged : Waveform where
  fsPerUnit := 1
  signals := [⟨"a", 2, [⟨3, ⟨[.high, .low]⟩⟩, ⟨3, ⟨[.high, .high]⟩⟩, ⟨4, ⟨[.low, .low]⟩⟩]⟩]
  endTime := 4

theorem open_dump_prolonged :
    load (.ok openDump) = .ok openDumpWaveform ∧
      load (.ok (openDump ++ "\n" ++ openDumpRest)) = .ok openDumpProlonged ∧
      openDumpWaveform.Prolongs openDumpProlonged := by
  have front : load (.ok openDump) = .ok openDumpWaveform := by rfl
  have whole : load (.ok (openDump ++ "\n" ++ openDumpRest)) = .ok openDumpProlonged := by rfl
  exact ⟨front, whole, added_lines_prolong openDump openDumpRest _ _ front whole⟩

end Waveform

end CoreBench
