import CoreBench.Probe.Stimulus

/-!
What a schedule makes of a signal. Time passing in several advances comes to the
same as time passing at once: the value is that of the last change up to the new
time. The changes wait in the order of their times, so those of a later interval
stand behind those of an earlier one.
-/

namespace CoreBench.Stimulus

/-- The last value that the schedule gives a signal at the times of `interval`. -/
def changed? (stimulus : Stimulus) (path : String) (interval : Nat → Bool) : Option Bus :=
  ((stimulus.pending.filter fun change => change.path = path && interval change.time).getLast?).map
    Change.value

/-- Only the changes of the signal itself matter to what the schedule gives it. -/
theorem changed_own (stimulus : Stimulus) (path : String) (interval : Nat → Bool) :
    stimulus.changed? path interval =
      (((stimulus.pending.filter fun change => change.path = path).filter
        fun change => interval change.time).getLast?).map Change.value := by
  rw [changed?, List.filter_filter]
  congr 2
  apply List.filter_congr
  intro change _
  exact Bool.and_comm _ _

/-- The value of a signal as the schedule has it at a time. -/
def scheduled? (stimulus : Stimulus) (path : String) (time : Nat) : Option Bus :=
  (stimulus.changed? path (· ≤ time)).or (stimulus.value? path)

theorem apply_all_get (signals : Table Bus) (changes : List Change) (path : String) :
    (applyAll signals changes).get? path =
      (((changes.filter fun change => change.path = path).getLast?).map Change.value).or
        (signals.get? path) := by
  induction changes generalizing signals with
  | nil => simp [applyAll]
  | cons change rest ih =>
      have unfolded : applyAll signals (change :: rest) =
          applyAll (signals.put change.path change.value) rest := rfl
      rw [unfolded, ih, Table.get?_put]
      by_cases same : change.path = path
      · cases last : (rest.filter fun change => change.path = path).getLast? with
        | none => simp [same, List.getLast?_cons, last]
        | some other => simp [same, List.getLast?_cons, last]
      · simp [same]

/-- When nothing of the first kind follows something of the second kind, both kinds
are selected by selecting the first and then the second. -/
theorem filter_or_of_pairwise {α : Type} (first second : α → Bool) (queue : List α)
    (disjoint : ∀ entry, first entry → second entry = false)
    (apart : queue.Pairwise fun a b => second a → first b = false) :
    (queue.filter fun entry => first entry || second entry) =
      queue.filter first ++ queue.filter second := by
  induction queue with
  | nil => rfl
  | cons head rest ih =>
      obtain ⟨after, apart⟩ := List.pairwise_cons.mp apart
      have split := ih apart
      by_cases one : first head
      · simp [one, disjoint head one, split]
      · by_cases two : second head
        -- Behind an element of the second kind there is none of the first.
        · have none : rest.filter first = [] := by
            apply List.filter_eq_nil_iff.mpr
            intro entry member selected
            rw [after entry member two] at selected
            cases selected
          rw [none, List.nil_append] at split
          simp [one, two, none, split]
        · simp [one, two, split]

/-- The schedule changes a signal last in the later of two intervals, if it does so
in that one at all. -/
theorem changed_or (stimulus : Stimulus) (path : String) (early late : Nat → Bool) (bound : Nat)
    (before : ∀ time, early time → time ≤ bound) (behind : ∀ time, late time → bound < time) :
    stimulus.changed? path (fun time => early time || late time) =
      (stimulus.changed? path late).or (stimulus.changed? path early) := by
  have split := filter_or_of_pairwise
    (fun change : Change => change.path = path && early change.time)
    (fun change : Change => change.path = path && late change.time) stimulus.pending
    (by
      intro change selected
      simp only [Bool.and_eq_true] at selected
      have := before _ selected.2
      apply Bool.eq_false_iff.mpr
      intro other
      simp only [Bool.and_eq_true] at other
      have := behind _ other.2
      omega)
    -- The order of the queue keeps the later interval behind the earlier one.
    (stimulus.ordered.imp (by
      intro a b ordered selected
      simp only [Bool.and_eq_true] at selected
      have := behind _ selected.2
      apply Bool.eq_false_iff.mpr
      intro other
      simp only [Bool.and_eq_true] at other
      have := before _ other.2
      omega))
  simp only [← Bool.and_or_distrib_left] at split
  rw [changed?, split, List.getLast?_append, changed?, changed?, Option.map_or]

theorem changed_never (stimulus : Stimulus) (path : String) (interval : Nat → Bool)
    (never : ∀ time, interval time = false) : stimulus.changed? path interval = none := by
  have empty : (stimulus.pending.filter fun change =>
      change.path = path && interval change.time) = [] := by
    apply List.filter_eq_nil_iff.mpr
    intro change _
    simp [never]
  rw [changed?, empty]
  rfl

/-- A signal keeps its value until the schedule changes it. -/
theorem scheduled_later (stimulus : Stimulus) (path : String) (early late : Nat)
    (order : early ≤ late) :
    stimulus.scheduled? path late =
      (stimulus.changed? path fun time => early < time && time ≤ late).or
        (stimulus.scheduled? path early) := by
  have split := stimulus.changed_or path (fun time => time ≤ early)
    (fun time => early < time && time ≤ late) early (by simp) (by simp; omega)
  have cover : (fun time : Nat => decide (time ≤ late)) = fun time =>
      decide (time ≤ early) || (decide (early < time) && decide (time ≤ late)) := by
    funext time
    rw [← Bool.decide_and, ← Bool.decide_or, decide_eq_decide]
    omega
  rw [scheduled?, cover, split, scheduled?, Option.or_assoc]

theorem scheduled_declared (stimulus : Stimulus) (path : String) (time : Nat)
    (declared : (stimulus.value? path).isSome) : (stimulus.scheduled? path time).isSome := by
  rw [scheduled?, Option.isSome_or, declared, Bool.or_true]

theorem read_eq (stimulus : Stimulus) (path : String) :
    Probe.read stimulus path =
      (match stimulus.value? path with
        | some value => .ok value
        | none => .error (.unknownSignal path), stimulus) := by
  show read stimulus path = _
  rw [read]
  cases stimulus.value? path <;> rfl

theorem read_declared (stimulus : Stimulus) (path : String) (value : Bus)
    (declared : stimulus.value? path = some value) :
    Probe.read stimulus path = (.ok value, stimulus) := by
  show read stimulus path = _
  rw [read, declared]

def wrote (stimulus : Stimulus) (path : String) (value : Bus) : Stimulus :=
  { stimulus with
    signals := stimulus.signals.put path value
    writes := stimulus.writes ++ [⟨stimulus.now, path, value⟩] }

theorem write_declared (stimulus : Stimulus) (path : String) (value : Bus)
    (declared : (stimulus.value? path).isSome) :
    Probe.write stimulus path value = (.ok (), stimulus.wrote path value) := by
  obtain ⟨old, found⟩ := Option.isSome_iff_exists.mp declared
  show write stimulus path value = _
  rw [write, found]
  rfl

theorem wrote_value (stimulus : Stimulus) (path other : String) (value : Bus) :
    (stimulus.wrote path value).value? other =
      if path = other then some value else stimulus.value? other := by
  rw [value?, wrote, Table.get?_put, value?]

def advanced (stimulus : Stimulus) (units : Nat) : Stimulus :=
  { stimulus with
    now := stimulus.now + units
    signals := applyAll stimulus.signals
      (stimulus.pending.filter fun change => change.time ≤ stimulus.now + units)
    pending := stimulus.pending.filter fun change => stimulus.now + units < change.time
    ordered := stimulus.later_ordered units }

theorem advance_ok (stimulus : Stimulus) (units : Nat) (fits : stimulus.now + units < wordLimit) :
    Probe.advance stimulus units = (.ok (), stimulus.advanced units) := by
  show advance stimulus units = _
  rw [advance, if_neg (by omega)]
  rfl

theorem advance_full (stimulus : Stimulus) (units : Nat) (full : wordLimit ≤ stimulus.now + units) :
    Probe.advance stimulus units = (.error (.backend "simulated time overflow"), stimulus) := by
  show advance stimulus units = _
  rw [advance, if_pos full]

/-- An advance brings every signal to what the schedule has at the new time. -/
theorem advanced_value (stimulus : Stimulus) (units : Nat) (path : String) :
    (stimulus.advanced units).value? path =
      stimulus.scheduled? path (stimulus.now + units) := by
  rw [value?, advanced, apply_all_get, scheduled?, changed?, List.filter_filter]
  rfl

/-- What waits after an advance changes a signal when the whole schedule does so
after that advance. -/
theorem advanced_changed (stimulus : Stimulus) (units : Nat) (path : String)
    (interval : Nat → Bool) :
    (stimulus.advanced units).changed? path interval =
      stimulus.changed? path fun time => stimulus.now + units < time && interval time := by
  rw [changed?, changed?, advanced, List.filter_filter]
  congr 2
  apply List.filter_congr
  intro change _
  cases decide (change.path = path) <;> simp [Bool.and_comm]

end CoreBench.Stimulus
