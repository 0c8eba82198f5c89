import CoreBench.Proofs.Calendar

/-!
What waits in a stimulus, and what comes of it. The agenda lists the changes in the order in
which they were scheduled, each with its number in that order; a change is struck off when the
time reaches it. After any operations the queue of a stimulus holds what is on the agenda. An
advance gives each signal the value of the change on it that is the last by time and, at one
time, by number. So it makes no difference into how many advances a stretch of time is cut. A
calendar comes to the same by its loop: what the loop leaves waiting is the agenda as it stands.
-/

namespace CoreBench

structure Agenda where
  now : Nat := 0
  booked : Nat := 0
  waiting : List Booking := []
  deriving DecidableEq, Repr

namespace Agenda

def note (agenda : Agenda) : Operation → Agenda
  | .schedule change =>
      { agenda with
        booked := agenda.booked + 1
        waiting := agenda.waiting ++ [⟨agenda.booked, change⟩] }
  | .request (.advance units) =>
      let target := agenda.now + units
      if wordLimit ≤ target then agenda
      else
        { agenda with
          now := target
          waiting := agenda.waiting.filter fun booking => target < booking.change.time }
  | _ => agenda

def ofAll (operations : List Operation) : Agenda :=
  operations.foldl note {}

theorem of_all_concat (operations : List Operation) (operation : Operation) :
    ofAll (operations ++ [operation]) = (ofAll operations).note operation := by
  rw [ofAll, List.foldl_append]
  rfl

theorem booked_request (agenda : Agenda) (request : Request) :
    (agenda.note (.request request)).booked = agenda.booked := by
  cases request with
  | read path => rfl
  | write path value => rfl
  | advance units =>
      rw [note]
      split <;> rfl

theorem booked_note (agenda : Agenda) (operation : Operation) :
    agenda.booked ≤ (agenda.note operation).booked := by
  cases operation with
  | declare path value => exact Nat.le_refl _
  | schedule change => exact Nat.le_succ _
  | request request => exact Nat.le_of_eq (agenda.booked_request request).symm

/-- The last of the bookings for a signal that have come by a time. -/
structure Decides (waiting : List Booking) (path : String) (time : Nat) (booking : Booking) :
    Prop where
  listed : booking ∈ waiting
  own : booking.change.path = path
  come : booking.change.time ≤ time
  last : ∀ other ∈ waiting, other.change.path = path → other.change.time ≤ time →
    other = booking ∨ other.Before booking

/-- The value of a signal when a time has come, by its value before. -/
inductive Brings (waiting : List Booking) (path : String) (time : Nat) (before : Option Bus) :
    Option Bus → Prop where
  | changed (booking : Booking) (decides : Decides waiting path time booking) :
      Brings waiting path time before (some booking.change.value)
  | kept (nothing : ∀ booking ∈ waiting, booking.change.path = path →
      time < booking.change.time) : Brings waiting path time before before

end Agenda

namespace Stimulus

def perform (stimulus : Stimulus) : Operation → Stimulus
  | .declare path value => stimulus.declare path value
  | .schedule change => stimulus.schedule change
  | .request request => Probe.serve stimulus request

def performAll (operations : List Operation) : Stimulus :=
  operations.foldl perform {}

theorem perform_all_concat (operations : List Operation) (operation : Operation) :
    performAll (operations ++ [operation]) = (performAll operations).perform operation := by
  rw [performAll, List.foldl_append]
  rfl

/-- The queue of a stimulus has what is on the agenda, in the order in which it will come. -/
structure Keeps (agenda : Agenda) (stimulus : Stimulus) : Prop where
  now : stimulus.now = agenda.now
  numbered : ∀ booking ∈ agenda.waiting, booking.number < agenda.booked
  queue : ∃ queue : List Booking, queue.Perm agenda.waiting ∧
    queue.Pairwise Booking.Before ∧ queue.map Booking.change = stimulus.pending

/-- The latest booking takes its place behind all that are not later. -/
theorem enqueue_booking (booking : Booking) (queue : List Booking)
    (sorted : queue.Pairwise Booking.Before)
    (latest : ∀ other ∈ queue, other.number < booking.number) :
    ∃ queue' : List Booking, queue'.Perm (queue ++ [booking]) ∧
      queue'.Pairwise Booking.Before ∧
      queue'.map Booking.change = enqueue booking.change (queue.map Booking.change) := by
  induction queue with
  | nil => exact ⟨[booking], .refl _, List.pairwise_singleton _ _, rfl⟩
  | cons first rest ih =>
      obtain ⟨least, sorted⟩ := List.pairwise_cons.mp sorted
      have later := latest first List.mem_cons_self
      simp only [List.map_cons, enqueue]
      by_cases early : first.change.time ≤ booking.change.time
      · obtain ⟨queue', same, sorted', shown⟩ :=
          ih sorted fun other member => latest other (List.mem_cons_of_mem first member)
        refine ⟨first :: queue', same.cons first, List.pairwise_cons.mpr ⟨?_, sorted'⟩, ?_⟩
        · intro other member
          rcases List.mem_append.mp (same.mem_iff.mp member) with old | new
          · exact least other old
          · obtain rfl := List.mem_singleton.mp new
            rcases Nat.lt_or_eq_of_le early with before | equal
            · exact .inl before
            · exact .inr ⟨equal, later⟩
        · simp [early, shown]
      · have before : booking.change.time < first.change.time := Nat.lt_of_not_le early
        refine ⟨booking :: first :: rest, (List.perm_append_singleton _ _).symm, ?_, ?_⟩
        · refine List.pairwise_cons.mpr ⟨?_, List.pairwise_cons.mpr ⟨least, sorted⟩⟩
          intro other member
          rcases List.mem_cons.mp member with rfl | behind
          · exact .inl before
          · rcases least other behind with sooner | ⟨equal, _⟩
            · exact .inl (Nat.lt_trans before sooner)
            · exact .inl (equal ▸ before)
        · simp [early]

theorem write_keeps_queue (stimulus : Stimulus) (path : String) (value : Bus) :
    (Probe.write stimulus path value).2.now = stimulus.now ∧
      (Probe.write stimulus path value).2.pending = stimulus.pending := by
  change (write stimulus path value).2.now = _ ∧ (write stimulus path value).2.pending = _
  unfold write
  cases stimulus.value? path <;> exact ⟨rfl, rfl⟩

variable {agenda : Agenda} {stimulus : Stimulus}

theorem Keeps.advanced (keeps : Keeps agenda stimulus) (units : Nat) :
    Keeps
      { agenda with
        now := agenda.now + units
        waiting := agenda.waiting.filter fun booking => agenda.now + units < booking.change.time }
      (stimulus.advanced units) := by
  obtain ⟨queue, same, sorted, shown⟩ := keeps.queue
  constructor
  case now => exact congrArg (· + units) keeps.now
  case numbered =>
    intro booking member
    exact keeps.numbered booking (List.mem_filter.mp member).1
  case queue =>
    refine ⟨queue.filter fun booking => agenda.now + units < booking.change.time,
      same.filter _, sorted.filter _, ?_⟩
    simp only [Stimulus.advanced, ← shown, keeps.now, List.filter_map, Function.comp_def]

theorem Keeps.perform (keeps : Keeps agenda stimulus) (operation : Operation) :
    Keeps (agenda.note operation) (stimulus.perform operation) := by
  cases operation with
  | declare path value => exact ⟨keeps.now, keeps.numbered, keeps.queue⟩
  | schedule change =>
      obtain ⟨queue, same, sorted, shown⟩ := keeps.queue
      have latest : ∀ other ∈ queue, other.number < agenda.booked :=
        fun other member => keeps.numbered other (same.mem_iff.mp member)
      obtain ⟨queue', same', sorted', shown'⟩ :=
        enqueue_booking ⟨agenda.booked, change⟩ queue sorted latest
      refine ⟨keeps.now, ?_, queue', same'.trans (same.append_right _), sorted', ?_⟩
      · intro booking member
        rcases List.mem_append.mp member with old | new
        · exact Nat.lt_succ_of_lt (keeps.numbered booking old)
        · rw [List.mem_singleton.mp new]
          exact Nat.lt_succ_self _
      · rw [shown', shown]
        rfl
  | request request =>
      cases request with
      | read path =>
          have unchanged : stimulus.perform (.request (.read path)) = stimulus := by
            simp only [Stimulus.perform, Probe.serve, read_eq]
          rw [unchanged]
          exact keeps
      | write path value =>
          obtain ⟨now, pending⟩ := stimulus.write_keeps_queue path value
          exact ⟨now.trans keeps.now, keeps.numbered, pending.symm ▸ keeps.queue⟩
      | advance units =>
          simp only [Agenda.note, Stimulus.perform, Probe.serve, ← keeps.now]
          by_cases full : wordLimit ≤ stimulus.now + units
          · simp only [full, ↓reduceIte, stimulus.advance_full units full]
            exact keeps
          · simp only [full, ↓reduceIte, stimulus.advance_ok units (Nat.lt_of_not_le full)]
            have advanced := keeps.advanced units
            simpa only [keeps.now] using advanced

theorem perform_all_keeps (operations : List Operation) :
    Keeps (Agenda.ofAll operations) (performAll operations) := by
  unfold Agenda.ofAll performAll
  have start : Keeps {} {} :=
    ⟨rfl, fun booking member => absurd member List.not_mem_nil, [], .refl [], .nil, rfl⟩
  generalize ({} : Agenda) = agenda at start ⊢
  generalize ({} : Stimulus) = stimulus at start ⊢
  induction operations generalizing agenda stimulus with
  | nil => exact start
  | cons operation rest ih => exact ih _ _ (start.perform operation)

/-- Of the bookings in the order in which they come, the last one for a signal decides. -/
theorem decides_of_last (waiting queue : List Booking) (path : String) (time : Nat)
    (booking : Booking) (same : queue.Perm waiting) (sorted : queue.Pairwise Booking.Before)
    (last : (queue.filter fun booking =>
      booking.change.path = path && booking.change.time ≤ time).getLast? = some booking) :
    Agenda.Decides waiting path time booking := by
  obtain ⟨front, split⟩ := List.getLast?_eq_some_iff.mp last
  have member : booking ∈ queue.filter fun booking =>
      booking.change.path = path && booking.change.time ≤ time := by simp [split]
  obtain ⟨listed, own⟩ := List.mem_filter.mp member
  simp only [Bool.and_eq_true, decide_eq_true_eq] at own
  have behind := sorted.filter fun booking =>
    decide (booking.change.path = path) && decide (booking.change.time ≤ time)
  rw [split] at behind
  refine ⟨same.mem_iff.mp listed, own.1, own.2, ?_⟩
  intro other among mine come
  have selected : other ∈ front ++ [booking] := by
    rw [← split]
    exact List.mem_filter.mpr ⟨same.mem_iff.mpr among, by simp [mine, come]⟩
  rcases List.mem_append.mp selected with before | here
  · exact .inr ((List.pairwise_append.mp behind).2.2 other before booking List.mem_cons_self)
  · exact .inl (List.mem_singleton.mp here)

theorem Keeps.brings (keeps : Keeps agenda stimulus) (units : Nat) (path : String) :
    Agenda.Brings agenda.waiting path (stimulus.now + units) (stimulus.value? path)
      ((stimulus.advanced units).value? path) := by
  obtain ⟨queue, same, sorted, shown⟩ := keeps.queue
  have selected : (stimulus.pending.filter fun change =>
      change.path = path && change.time ≤ stimulus.now + units) =
        (queue.filter fun booking => booking.change.path = path &&
          booking.change.time ≤ stimulus.now + units).map Booking.change := by
    rw [← shown, List.filter_map]
    rfl
  rw [advanced_value, scheduled?, changed?, selected, List.getLast?_map]
  cases last : (queue.filter fun booking => booking.change.path = path &&
      booking.change.time ≤ stimulus.now + units).getLast? with
  | none =>
      apply Agenda.Brings.kept
      intro booking member own
      have none := List.filter_eq_nil_iff.mp (List.getLast?_eq_none_iff.mp last) booking
        (same.mem_iff.mpr member)
      simpa [own] using none
  | some booking =>
      exact .changed booking (decides_of_last agenda.waiting queue path _ booking same sorted last)

/-- What comes in the second of two stretches of time stands behind what comes in the first. -/
theorem pending_split (stimulus : Stimulus) (early late : Nat) (order : early ≤ late) :
    (stimulus.pending.filter fun change => change.time ≤ late) =
      (stimulus.pending.filter fun change => change.time ≤ early) ++
        (stimulus.pending.filter fun change => early < change.time).filter
          fun change => change.time ≤ late := by
  have split := filter_or_of_pairwise (fun change : Change => change.time ≤ early)
    (fun change => change.time ≤ late && early < change.time) stimulus.pending
    (by simp; omega) (stimulus.ordered.imp (by simp; omega))
  rw [List.filter_filter, ← split]
  apply List.filter_congr
  intro change _
  rw [← Bool.decide_and, ← Bool.decide_or, decide_eq_decide]
  omega

/-- Time that passes in two advances comes to the same as time that passes at once. -/
theorem advanced_advanced (stimulus : Stimulus) (units more : Nat) :
    (stimulus.advanced units).advanced more = stimulus.advanced (units + more) := by
  have total : stimulus.now + units + more = stimulus.now + (units + more) := Nat.add_assoc _ _ _
  have come := stimulus.pending_split (stimulus.now + units) (stimulus.now + (units + more))
    (by omega)
  have left : ((stimulus.pending.filter fun change => stimulus.now + units < change.time).filter
      fun change => stimulus.now + (units + more) < change.time) =
        stimulus.pending.filter fun change => stimulus.now + (units + more) < change.time := by
    rw [List.filter_filter]
    apply List.filter_congr
    intro change _
    rw [← Bool.decide_and, decide_eq_decide]
    omega
  simp only [advanced, total, come, left, applyAll, List.foldl_append]

end Stimulus

namespace Calendar

/-- What a calendar has on its agenda. -/
def agenda (calendar : Calendar) : Agenda :=
  ⟨calendar.now, calendar.next, calendar.waiting⟩

/-- A calendar and a stimulus that have come to the same. -/
structure Stands (calendar : Calendar) (stimulus : Stimulus) : Prop where
  keeps : Stimulus.Keeps calendar.agenda stimulus
  signals : calendar.signals = stimulus.signals
  writes : calendar.writes = stimulus.writes

variable {calendar : Calendar} {stimulus : Stimulus}

theorem Stands.value (stands : calendar.Stands stimulus) (path : String) :
    calendar.signals.get? path = stimulus.value? path := by
  rw [stands.signals, Stimulus.value?]

theorem advance_full (calendar : Calendar) (units : Nat) (full : wordLimit ≤ calendar.now + units) :
    Probe.advance calendar units = (.error (.backend "simulated time overflow"), calendar) :=
  if_pos full

/-- The loop comes to the two filters of the stimulus. -/
theorem Stands.advance_ok (stands : calendar.Stands stimulus) (units : Nat)
    (fits : calendar.now + units < wordLimit) :
    Probe.advance calendar units =
      (.ok (), { calendar with
        now := calendar.now + units
        signals := (stimulus.advanced units).signals
        waiting := calendar.waiting.filter fun booking =>
          calendar.now + units < booking.change.time }) := by
  obtain ⟨queue, same, sorted, shown⟩ := stands.keeps.queue
  have drained := drain_sorted (calendar.now + units) queue calendar.waiting calendar.signals
    same sorted
  have due : (stimulus.pending.filter fun change => change.time ≤ stimulus.now + units) =
      (queue.filter fun booking => booking.change.time ≤ calendar.now + units).map
        Booking.change := by
    rw [← shown, List.filter_map, stands.keeps.now]
    rfl
  show advance calendar units = _
  rw [advance, if_neg (Nat.not_le_of_lt fits), drained, Stimulus.advanced, due, stands.signals]

/-- An advance fails for the one if it fails for the other. -/
theorem Stands.answer (stands : calendar.Stands stimulus) (units : Nat) :
    (Probe.advance calendar units).1 = (Probe.advance stimulus units).1 := by
  have moment : stimulus.now = calendar.now := stands.keeps.now
  by_cases full : wordLimit ≤ calendar.now + units
  · rw [advance_full calendar units full, stimulus.advance_full units (moment ▸ full)]
  · have fits := Nat.lt_of_not_le full
    rw [stands.advance_ok units fits, stimulus.advance_ok units (moment ▸ fits)]

theorem read_calendar (calendar : Calendar) (path : String) :
    (Probe.read calendar path).2 = calendar := by
  change (read calendar path).2 = calendar
  unfold read
  cases calendar.signals.get? path <;> rfl

theorem Stands.write (stands : calendar.Stands stimulus) (path : String) (value : Bus) :
    let wrote := (Probe.write calendar path value).2
    wrote.agenda = calendar.agenda ∧
      wrote.signals = (Probe.write stimulus path value).2.signals ∧
      wrote.writes = (Probe.write stimulus path value).2.writes := by
  change (Calendar.write calendar path value).2.agenda = _ ∧
    (Calendar.write calendar path value).2.signals = (Stimulus.write stimulus path value).2.signals ∧
    (Calendar.write calendar path value).2.writes = (Stimulus.write stimulus path value).2.writes
  have moment : stimulus.now = calendar.now := stands.keeps.now
  rw [Calendar.write, Stimulus.write, stands.value path]
  cases stimulus.value? path with
  | none => exact ⟨rfl, stands.signals, stands.writes⟩
  | some held => simp [agenda, stands.signals, stands.writes, moment]

/-- What an operation leaves waiting is what is then on the agenda, in the order of scheduling. -/
theorem Stands.noted (stands : calendar.Stands stimulus) {operation : Operation}
    {after : Calendar} (performed : calendar.perform? operation = some after) :
    after.agenda = calendar.agenda.note operation ∧
      after.signals = (stimulus.perform operation).signals ∧
      after.writes = (stimulus.perform operation).writes := by
  cases operation with
  | declare path value =>
      cases performed
      exact ⟨rfl, congrArg (·.put path value) stands.signals, stands.writes⟩
  | schedule change =>
      rw [perform?, schedule?] at performed
      split at performed
      · cases performed
      · cases performed
        exact ⟨rfl, stands.signals, stands.writes⟩
  | request request =>
      cases performed
      cases request with
      | read path =>
          simp only [Probe.serve, Stimulus.perform, read_calendar, Stimulus.read_eq]
          exact ⟨rfl, stands.signals, stands.writes⟩
      | write path value => exact stands.write path value
      | advance units =>
          have moment : stimulus.now = calendar.now := stands.keeps.now
          by_cases full : wordLimit ≤ calendar.now + units
          · simp only [Probe.serve, Stimulus.perform, advance_full calendar units full,
              stimulus.advance_full units (moment ▸ full)]
            exact ⟨(if_pos full).symm, stands.signals, stands.writes⟩
          · have fits := Nat.lt_of_not_le full
            simp only [Probe.serve, Stimulus.perform, stands.advance_ok units fits,
              stimulus.advance_ok units (moment ▸ fits)]
            exact ⟨(if_neg full).symm, trivial, stands.writes⟩

theorem Stands.perform (stands : calendar.Stands stimulus) {operation : Operation}
    {after : Calendar} (performed : calendar.perform? operation = some after) :
    after.Stands (stimulus.perform operation) := by
  obtain ⟨noted, signals, writes⟩ := stands.noted performed
  exact ⟨noted ▸ stands.keeps.perform operation, signals, writes⟩

theorem perform_none_iff (calendar : Calendar) (operation : Operation)
    (room : calendar.next < wordLimit) :
    calendar.perform? operation = none ↔
      wordLimit ≤ (calendar.agenda.note operation).booked := by
  cases operation with
  | declare path value =>
      constructor
      · rintro ⟨⟩
      · intro full
        exact absurd room (Nat.not_lt_of_le full)
  | schedule change => simp [perform?, schedule?, Agenda.note, agenda]
  | request request =>
      rw [Agenda.booked_request]
      constructor
      · rintro ⟨⟩
      · intro full
        exact absurd room (Nat.not_lt_of_le full)

/-- The numbers last exactly as long as fewer changes were scheduled than there are of them. So
long a calendar keeps pace with the agenda and with the stimulus. -/
theorem perform_all_stands (operations : List Operation) :
    (performAll? operations = none ↔ wordLimit ≤ (Agenda.ofAll operations).booked) ∧
      ∀ calendar, performAll? operations = some calendar →
        calendar.agenda = Agenda.ofAll operations ∧
          calendar.Stands (Stimulus.performAll operations) := by
  -- On the operations from behind: the last one is performed by what the others leave.
  induction operations using List.reverseRecOn with
  | nil =>
      refine ⟨⟨?_, ?_⟩, ?_⟩
      · rintro ⟨⟩
      · intro full
        exact absurd full (by decide)
      · rintro calendar ⟨⟩
        exact ⟨rfl, Stimulus.perform_all_keeps [], rfl, rfl⟩
  | append_singleton earlier operation ih =>
      obtain ⟨lasts, keeps⟩ := ih
      have ran : performAll? (earlier ++ [operation]) =
          (performAll? earlier).bind fun calendar => calendar.perform? operation := by
        rw [performAll?, List.foldlM_append]
        simp [performAll?]
      rw [ran, Agenda.of_all_concat, Stimulus.perform_all_concat]
      cases done : performAll? earlier with
      | none =>
          have full := Nat.le_trans (lasts.mp done) (Agenda.booked_note _ operation)
          refine ⟨⟨fun _ => full, fun _ => rfl⟩, ?_⟩
          rintro calendar ⟨⟩
      | some calendar =>
          obtain ⟨same, stands⟩ := keeps calendar done
          have room : calendar.next < wordLimit := by
            have more : ¬ wordLimit ≤ (Agenda.ofAll earlier).booked := by
              rw [← lasts, done]
              rintro ⟨⟩
            rw [← same] at more
            exact Nat.lt_of_not_le more
          rw [← same]
          refine ⟨perform_none_iff calendar operation room, fun after performed => ?_⟩
          exact ⟨(stands.noted performed).1, stands.perform performed⟩

end Calendar

namespace Stimulus

/-- After any operations the queue of a stimulus holds what is on its agenda. An advance fails
exactly if the time would not fit into 64 bits, and then it has no effect. Otherwise it moves
the time, keeps what is still to come, and brings each signal to the value of the change that
decides, by what was on the agenda before. Two advances come to what one does that takes as
long as both. A calendar, which takes out the least of what waits until none is due, answers
the same and comes to the same, as long as it has numbers for what is scheduled. -/
theorem advance_follows_agenda (operations : List Operation) (units : Nat) :
    let stimulus := performAll operations
    let waiting := (Agenda.ofAll operations).waiting
    let target := stimulus.now + units
    stimulus.pending.Perm (waiting.map Booking.change) ∧
      (wordLimit ≤ target → Probe.advance stimulus units =
        (.error (.backend "simulated time overflow"), stimulus)) ∧
      (target < wordLimit → ∃ after, Probe.advance stimulus units = (.ok (), after) ∧
        after.now = target ∧
        after.pending = (stimulus.pending.filter fun change => target < change.time) ∧
        (∀ path, Agenda.Brings waiting path target (stimulus.value? path) (after.value? path)) ∧
        after.writes = stimulus.writes) ∧
      (∀ more, target + more < wordLimit →
        Probe.advance (Probe.advance stimulus units).2 more =
          Probe.advance stimulus (units + more)) ∧
      (Calendar.performAll? operations = none ↔ wordLimit ≤ (Agenda.ofAll operations).booked) ∧
      ∀ calendar, Calendar.performAll? operations = some calendar →
        calendar.agenda = Agenda.ofAll operations ∧ calendar.Stands stimulus ∧
          (Probe.advance calendar units).1 = (Probe.advance stimulus units).1 ∧
          (Probe.advance calendar units).2.Stands (Probe.advance stimulus units).2 := by
  intro stimulus waiting target
  have keeps := perform_all_keeps operations
  refine ⟨?_, stimulus.advance_full units, ?_, ?_, (Calendar.perform_all_stands operations).1, ?_⟩
  · obtain ⟨queue, same, _, shown⟩ := keeps.queue
    rw [← shown]
    exact same.map Booking.change
  · intro fits
    exact ⟨stimulus.advanced units, stimulus.advance_ok units fits, rfl, rfl, keeps.brings units,
      rfl⟩
  · intro more fits
    have first : stimulus.now + units < wordLimit := Nat.lt_of_le_of_lt (Nat.le_add_right _ _) fits
    have whole : stimulus.now + (units + more) < wordLimit := by rwa [← Nat.add_assoc]
    rw [stimulus.advance_ok units first, stimulus.advance_ok (units + more) whole,
      (stimulus.advanced units).advance_ok more fits, advanced_advanced]
  · intro calendar performed
    obtain ⟨same, stands⟩ := (Calendar.perform_all_stands operations).2 calendar performed
    have performs : calendar.perform? (.request (.advance units)) =
        some (Probe.advance calendar units).2 := rfl
    exact ⟨same, stands, stands.answer units, stands.perform performs⟩

/-- A lamp is scheduled twice for one time and once for an earlier one, and a bell for a time
that has passed. -/
def signalPlan : List Operation :=
  [.schedule ⟨5, "lamp", Bus.ofNat 1 4⟩, .schedule ⟨5, "lamp", Bus.ofNat 2 4⟩,
    .schedule ⟨3, "lamp", Bus.ofNat 3 4⟩, .schedule ⟨9, "lamp", Bus.ofNat 4 4⟩,
    .request (.advance 2), .schedule ⟨1, "bell", Bus.ofNat 7 4⟩]

/-- The lamp shows what was scheduled second for the later of its times, and the bell what was
scheduled too late. In a calendar only the last change of the lamp then waits, the fourth. -/
theorem plan_follows_agenda :
    let stimulus := performAll signalPlan
    let waiting := (Agenda.ofAll signalPlan).waiting
    stimulus.now + 4 < wordLimit ∧ waiting.map Booking.number = [0, 1, 2, 3, 4] ∧
      (∃ after, Probe.advance stimulus 4 = (.ok (), after) ∧ after.now = 6 ∧
        after.pending = [⟨9, "lamp", Bus.ofNat 4 4⟩] ∧
        Agenda.Brings waiting "lamp" 6 none (after.value? "lamp") ∧
        after.value? "lamp" = some (Bus.ofNat 2 4) ∧
        after.value? "bell" = some (Bus.ofNat 7 4)) ∧
      ∃ calendar, Calendar.performAll? signalPlan = some calendar ∧
        (Probe.advance calendar 4).1 = .ok () ∧
        (Probe.advance calendar 4).2.signals.get? "lamp" = some (Bus.ofNat 2 4) ∧
        (Probe.advance calendar 4).2.waiting = [⟨3, ⟨9, "lamp", Bus.ofNat 4 4⟩⟩] := by
  intro stimulus waiting
  obtain ⟨_, _, advances, _, lasts, follows⟩ := advance_follows_agenda signalPlan 4
  obtain ⟨after, advanced, now, pending, brings, _⟩ := advances (by decide)
  refine ⟨by decide, by decide, ⟨after, advanced, now, pending, brings "lamp", ?_, ?_⟩, ?_⟩
  · cases advanced
    decide
  · cases advanced
    decide
  · have room : Calendar.performAll? signalPlan ≠ none := by
      rw [Ne, lasts]
      decide
    obtain ⟨calendar, performed⟩ := Option.ne_none_iff_exists'.mp room
    obtain ⟨same, before, answer, stands⟩ := follows calendar performed
    have performs : calendar.perform? (.request (.advance 4)) =
        some (Probe.advance calendar 4).2 := rfl
    have left := congrArg Agenda.waiting (before.noted performs).1
    rw [same] at left
    refine ⟨calendar, performed, answer.trans (by rfl), ?_, left.trans (by decide)⟩
    rw [stands.value]
    cases advanced
    decide

end Stimulus

end CoreBench
