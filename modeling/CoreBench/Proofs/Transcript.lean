import CoreBench.Probe.Replay
import CoreBench.Proofs.Histories
import CoreBench.Proofs.Schedule
import Mathlib.Data.List.Nodup

/-!
A recording written out as a schedule. Each signal starts undefined, and each of its samples
is a change at the first unit of time that is not before it. Replaying the recording by
bisection and playing the schedule from its queue then show the same at every unit.
-/

namespace CoreBench

/-- The time of a sample in units, rounded up. -/
def Sample.change (sample : Sample) (name : String) (unit : Nat) : Change :=
  ⟨(sample.time + (unit - 1)) / unit, name, sample.value⟩

def Signal.changes (signal : Signal) (unit : Nat) : List Change :=
  signal.history.map fun sample => sample.change signal.name unit

namespace Waveform

/-- The signals before anything has happened. -/
def blank (waveform : Waveform) : Stimulus :=
  waveform.signals.foldl
    (fun stimulus signal => stimulus.declare signal.name (Bus.filled signal.width .unknown)) {}

/-- All samples of a recording as changes in units that take the given femtoseconds. -/
def transcript (waveform : Waveform) (unit : Nat) : Stimulus :=
  (waveform.signals.flatMap fun signal => signal.changes unit).foldl Stimulus.schedule waveform.blank

/-- A recording in which every name stands for one signal with a history in order. -/
structure Orderly (waveform : Waveform) : Prop where
  distinct : (waveform.signals.map Signal.name).Nodup
  plain : ∀ signal ∈ waveform.signals, '/' ∉ signal.name.toList
  sorted : ∀ signal ∈ waveform.signals,
    signal.history.Pairwise fun earlier later => earlier.time ≤ later.time
  fits : waveform.endTime < wordLimit

end Waveform

namespace Stimulus

theorem enqueue_apart (change : Change) (queue : List Change) (path : String)
    (apart : change.path ≠ path) :
    ((enqueue change queue).filter fun other => other.path = path) =
      queue.filter fun other => other.path = path := by
  induction queue with
  | nil => simp [enqueue, apart]
  | cons first rest ih =>
      rw [enqueue]
      split
      · rw [List.filter_cons, List.filter_cons, ih]
      · rw [List.filter_cons_of_neg (by simpa using apart)]

/-- A change comes behind the other changes of its signal, if none of them is later. -/
theorem enqueue_last (change : Change) (queue : List Change)
    (sorted : queue.Pairwise fun a b => a.time ≤ b.time)
    (last : ∀ other ∈ queue, other.path = change.path → other.time ≤ change.time) :
    ((enqueue change queue).filter fun other => other.path = change.path) =
      (queue.filter fun other => other.path = change.path) ++ [change] := by
  induction queue with
  | nil => simp [enqueue]
  | cons first rest ih =>
      obtain ⟨least, sorted⟩ := List.pairwise_cons.mp sorted
      rw [enqueue]
      split
      · have later := ih sorted fun other member => last other (List.mem_cons_of_mem _ member)
        rw [List.filter_cons, List.filter_cons, later]
        split
        · rfl
        · rfl
      · -- All that wait are later than the change, so none of them is of its signal.
        rename_i late
        have none : ((first :: rest).filter fun other => other.path = change.path) = [] := by
          rw [List.filter_eq_nil_iff]
          intro other member own
          have bound := last other member (of_decide_eq_true own)
          rcases List.mem_cons.mp member with rfl | behind
          · exact late bound
          · exact late (Nat.le_trans (least other behind) bound)
        rw [List.filter_cons_of_pos (by simp), none, List.nil_append]

/-- Scheduling the changes of a signal in the order of time keeps their order. -/
theorem schedule_all_pending (changes : List Change) (stimulus : Stimulus) (path : String)
    (sorted : ((stimulus.pending.filter fun change => change.path = path) ++
      changes.filter fun change => change.path = path).Pairwise fun a b => a.time ≤ b.time) :
    ((changes.foldl schedule stimulus).pending.filter fun change => change.path = path) =
      (stimulus.pending.filter fun change => change.path = path) ++
        changes.filter fun change => change.path = path := by
  induction changes generalizing stimulus with
  | nil => simp
  | cons change rest ih =>
      rw [List.foldl_cons]
      have enqueued : (stimulus.schedule change).pending = enqueue change stimulus.pending := rfl
      by_cases own : change.path = path
      · subst own
        rw [List.filter_cons_of_pos (by simp)] at sorted ⊢
        have last : ∀ other ∈ stimulus.pending, other.path = change.path →
            other.time ≤ change.time := by
          intro other member same
          exact (List.pairwise_append.mp sorted).2.2 other
            (List.mem_filter.mpr ⟨member, decide_eq_true same⟩) change List.mem_cons_self
        have placed := enqueue_last change stimulus.pending stimulus.ordered last
        rw [ih _ (by rwa [enqueued, placed, List.append_assoc]), enqueued, placed,
          List.append_assoc, List.singleton_append]
      · rw [List.filter_cons_of_neg (by simpa using own)] at sorted ⊢
        have placed := enqueue_apart change stimulus.pending path own
        rw [ih _ (by rwa [enqueued, placed]), enqueued, placed]

theorem schedule_all_value (changes : List Change) (stimulus : Stimulus) (path : String) :
    (changes.foldl schedule stimulus).value? path = stimulus.value? path := by
  induction changes generalizing stimulus with
  | nil => rfl
  | cons change rest ih => exact ih (stimulus.schedule change)

theorem schedule_all_now (changes : List Change) (stimulus : Stimulus) :
    (changes.foldl schedule stimulus).now = stimulus.now := by
  induction changes generalizing stimulus with
  | nil => rfl
  | cons change rest ih => exact ih (stimulus.schedule change)

/-- Time that has passed is no longer to come. -/
theorem advanced_scheduled (stimulus : Stimulus) (units : Nat) (path : String) (time : Nat)
    (later : stimulus.now + units ≤ time) :
    (stimulus.advanced units).scheduled? path time = stimulus.scheduled? path time := by
  rw [scheduled?, advanced_changed, advanced_value, ← scheduled_later _ _ _ _ later]

end Stimulus

/-- A sample has come by a time in units when its change is due by then. -/
theorem Sample.change_due (sample : Sample) (name : String) (unit time : Nat) (whole : 1 ≤ unit) :
    (sample.change name unit).time ≤ time ↔ sample.time ≤ time * unit := by
  have rounded := Nat.div_lt_iff_lt_mul (x := sample.time + (unit - 1)) (y := time + 1) whole
  rw [Nat.succ_mul] at rounded
  simp only [Sample.change]
  omega

theorem Signal.changes_sorted (signal : Signal) (unit : Nat)
    (sorted : signal.history.Pairwise fun earlier later => earlier.time ≤ later.time) :
    (signal.changes unit).Pairwise fun earlier later => earlier.time ≤ later.time := by
  rw [changes, List.pairwise_map]
  exact sorted.imp fun order => Nat.div_le_div_right (Nat.add_le_add_right order _)

/-- The value of a signal at a time in units is that of its last change that is due. -/
theorem Signal.value_at_change (signal : Signal) (unit time : Nat) (whole : 1 ≤ unit)
    (sorted : signal.history.Pairwise fun earlier later => earlier.time ≤ later.time) :
    (((signal.changes unit).filter fun change => change.time ≤ time).getLast?.map Change.value).getD
        (Bus.filled signal.width .unknown) =
      signal.valueAt (time * unit) := by
  have due : (fun change : Change => decide (change.time ≤ time)) ∘
      (fun sample : Sample => sample.change signal.name unit) =
        fun sample => decide (sample.time ≤ time * unit) := by
    funext sample
    exact decide_eq_decide.mpr (sample.change_due signal.name unit time whole)
  rw [valueAt, signal.take_samples_up_to _ sorted, changes, List.filter_map, due,
    List.getLast?_map]
  cases (signal.history.filter fun sample => sample.time ≤ time * unit).getLast? with
  | none => rfl
  | some sample => rfl

namespace Waveform

variable {waveform : Waveform}

/-- Among the changes of all signals, those with the name of a signal are its own. -/
theorem Orderly.changes_of (orderly : waveform.Orderly) (unit : Nat) (signal : Signal)
    (member : signal ∈ waveform.signals) :
    ((waveform.signals.flatMap fun other => other.changes unit).filter fun change =>
      change.path = signal.name) = signal.changes unit := by
  have distinct := orderly.distinct
  generalize waveform.signals = signals at member distinct
  have own : ((signal.changes unit).filter fun change => change.path = signal.name) =
      signal.changes unit := by
    rw [List.filter_eq_self]
    intro change recorded
    obtain ⟨sample, _, rfl⟩ := List.mem_map.mp recorded
    exact decide_eq_true rfl
  have foreign : ∀ others : List Signal, signal.name ∉ others.map Signal.name →
      ((others.flatMap fun other => other.changes unit).filter fun change =>
        change.path = signal.name) = [] := by
    intro others absent
    rw [List.filter_eq_nil_iff]
    intro change recorded same
    obtain ⟨other, among, recorded⟩ := List.mem_flatMap.mp recorded
    obtain ⟨sample, _, rfl⟩ := List.mem_map.mp recorded
    exact absent (List.mem_map.mpr ⟨other, among, of_decide_eq_true same⟩)
  obtain ⟨before, behind, rfl⟩ := List.append_of_mem member
  rw [List.map_append, List.map_cons, List.nodup_middle, List.nodup_cons, List.mem_append,
    not_or] at distinct
  rw [List.flatMap_append, List.flatMap_cons, List.filter_append, List.filter_append, own,
    foreign before distinct.1.1, foreign behind distinct.1.2, List.nil_append, List.append_nil]

theorem declare_all_value (signals : List Signal) (stimulus : Stimulus) (path : String)
    (absent : path ∉ signals.map Signal.name) :
    (signals.foldl (fun stimulus signal =>
      stimulus.declare signal.name (Bus.filled signal.width .unknown)) stimulus).value? path =
        stimulus.value? path := by
  induction signals generalizing stimulus with
  | nil => rfl
  | cons signal rest ih =>
      rw [List.map_cons, List.mem_cons, not_or] at absent
      rw [List.foldl_cons, ih _ absent.2, Stimulus.declare, Stimulus.value?, Table.get?_put,
        if_neg (Ne.symm absent.1), Stimulus.value?]

theorem declare_all_rest (signals : List Signal) (stimulus : Stimulus) :
    let declared := signals.foldl (fun stimulus signal =>
      stimulus.declare signal.name (Bus.filled signal.width .unknown)) stimulus
    declared.now = stimulus.now ∧ declared.pending = stimulus.pending := by
  induction signals generalizing stimulus with
  | nil => exact ⟨rfl, rfl⟩
  | cons signal rest ih => exact ih _

theorem Orderly.blank_value (orderly : waveform.Orderly) (signal : Signal)
    (member : signal ∈ waveform.signals) :
    waveform.blank.value? signal.name = some (Bus.filled signal.width .unknown) := by
  have distinct := orderly.distinct
  rw [blank]
  generalize waveform.signals = signals at member distinct
  obtain ⟨before, behind, rfl⟩ := List.append_of_mem member
  rw [List.map_append, List.map_cons, List.nodup_middle, List.nodup_cons, List.mem_append,
    not_or] at distinct
  rw [List.foldl_append, List.foldl_cons, declare_all_value _ _ _ distinct.1.2, Stimulus.declare,
    Stimulus.value?, Table.get?_put, if_pos rfl]

theorem transcript_now (waveform : Waveform) (unit : Nat) : (waveform.transcript unit).now = 0 := by
  rw [transcript, Stimulus.schedule_all_now, blank, (declare_all_rest _ _).1]

/-- The schedule has what the recording has. -/
theorem Orderly.transcript_scheduled (orderly : waveform.Orderly) (unit : Nat) (whole : 1 ≤ unit)
    (signal : Signal) (member : signal ∈ waveform.signals) (time : Nat) :
    (waveform.transcript unit).scheduled? signal.name time =
      some (signal.valueAt (time * unit)) := by
  have sorted := orderly.sorted signal member
  have empty : waveform.blank.pending = [] := by rw [blank, (declare_all_rest _ _).2]
  have pending : ((waveform.transcript unit).pending.filter fun change =>
      change.path = signal.name) = signal.changes unit := by
    rw [transcript, Stimulus.schedule_all_pending, empty, orderly.changes_of unit signal member]
    · rfl
    · rw [empty, orderly.changes_of unit signal member]
      exact signal.changes_sorted unit sorted
  rw [Stimulus.scheduled?, Stimulus.changed_own, pending, transcript, Stimulus.schedule_all_value,
    orderly.blank_value signal member, ← signal.value_at_change unit time whole sorted]
  cases ((signal.changes unit).filter fun change => change.time ≤ time).getLast? <;> rfl

/-- A full name stands for its signal. -/
theorem Orderly.resolve_name (orderly : waveform.Orderly) (signal : Signal)
    (member : signal ∈ waveform.signals) :
    ((waveform.resolve? signal.name).bind fun index => waveform.signals[index]?) = some signal := by
  cases found : waveform.indexOf? signal.name with
  | none =>
      have absent := List.findIdx?_eq_none_iff.mp found signal member
      exact absurd (decide_eq_true rfl) (Bool.eq_false_iff.mp absent)
  | some index =>
      obtain ⟨inside, same, _⟩ := List.findIdx?_eq_some_iff_getElem.mp found
      have one : waveform.signals[index] = signal :=
        List.inj_on_of_nodup_map orderly.distinct (List.getElem_mem inside) member
          (of_decide_eq_true same)
      rw [resolve?, found, Option.bind_some, List.getElem?_eq_getElem inside, one]

end Waveform

end CoreBench
