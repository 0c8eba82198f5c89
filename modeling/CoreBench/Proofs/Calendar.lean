import CoreBench.Proofs.Requests
import CoreBench.Proofs.Schedule

/-!
A simulator that keeps what waits in no order. Each change has its number in the order of
scheduling, and an advance takes out the least by time and number, again and again, until what
is left comes later. This applies the changes in the order in which they come, and leaves those
that are not due as they were.
-/

namespace CoreBench

/-- A change with its number in the order of scheduling. -/
structure Booking where
  number : Nat
  change : Change
  deriving DecidableEq, Repr

/-- The earlier time comes first, and at one time what was scheduled first. -/
def Booking.Before (one other : Booking) : Prop :=
  one.change.time < other.change.time ∨
    one.change.time = other.change.time ∧ one.number < other.number

instance (one other : Booking) : Decidable (one.Before other) :=
  inferInstanceAs (Decidable (_ ∨ _))

theorem Booking.Before.asymm {one other : Booking} (before : one.Before other) :
    ¬ other.Before one := by
  unfold Before at *
  omega

theorem Booking.Before.time_le {one other : Booking} (before : one.Before other) :
    one.change.time ≤ other.change.time := by
  unfold Before at before
  omega

/-- What can be done to a simulator in memory. -/
inductive Operation where
  | declare (path : String) (value : Bus)
  | schedule (change : Change)
  | request (request : Request)
  deriving DecidableEq, Repr

structure Calendar where
  now : Nat := 0
  signals : Table Bus := []
  waiting : List Booking := []
  next : Nat := 0
  writes : List Change := []
  deriving Repr

namespace Calendar

def least? : List Booking → Option Booking
  | [] => none
  | first :: rest =>
      match least? rest with
      | none => some first
      | some other => if other.Before first then some other else some first

theorem least_none (waiting : List Booking) (nothing : least? waiting = none) : waiting = [] := by
  cases waiting with
  | nil => rfl
  | cons first rest =>
      rw [least?] at nothing
      split at nothing
      · cases nothing
      · split at nothing <;> cases nothing

theorem least_spec (waiting : List Booking) (booking : Booking)
    (least : least? waiting = some booking) :
    booking ∈ waiting ∧ ∀ other ∈ waiting, ¬ other.Before booking := by
  induction waiting generalizing booking with
  | nil => cases least
  | cons first rest ih =>
      rw [least?] at least
      cases later : least? rest with
      | none =>
          rw [later] at least
          obtain rfl := Option.some.inj least
          obtain rfl := least_none rest later
          refine ⟨List.mem_cons_self, fun other member => ?_⟩
          obtain rfl := List.mem_singleton.mp member
          exact fun before => before.asymm before
      | some held =>
          obtain ⟨listed, lowest⟩ := ih held later
          rw [later] at least
          by_cases sooner : held.Before first
          · obtain rfl : held = booking := by simpa [sooner] using least
            refine ⟨List.mem_cons_of_mem first listed, fun other member => ?_⟩
            rcases List.mem_cons.mp member with rfl | behind
            · exact sooner.asymm
            · exact lowest other behind
          · obtain rfl : first = booking := by simpa [sooner] using least
            refine ⟨List.mem_cons_self, fun other member => ?_⟩
            rcases List.mem_cons.mp member with rfl | behind
            · exact fun before => before.asymm before
            · have notLess := lowest other behind
              unfold Booking.Before at *
              omega

/-- Takes out the least of what waits and applies it, as long as it is due. -/
def drain (target : Nat) (signals : Table Bus) (waiting : List Booking) :
    Table Bus × List Booking :=
  match _found : least? waiting with
  | none => (signals, waiting)
  | some booking =>
      if target < booking.change.time then (signals, waiting)
      else
        drain target (signals.put booking.change.path booking.change.value)
          (waiting.erase booking)
  termination_by waiting.length
  decreasing_by
    have listed := (least_spec waiting booking _found).1
    rw [List.length_erase_of_mem listed]
    exact Nat.sub_lt (List.length_pos_of_mem listed) Nat.one_pos

/-- What waits has one order in which it comes, and the least is the first in it. -/
theorem least_sorted (waiting rest : List Booking) (first : Booking)
    (same : (first :: rest).Perm waiting) (sorted : (first :: rest).Pairwise Booking.Before) :
    least? waiting = some first := by
  cases least : least? waiting with
  | none =>
      rw [least_none waiting least] at same
      exact absurd same.length_eq (Nat.succ_ne_zero _)
  | some booking =>
      obtain ⟨listed, lowest⟩ := least_spec waiting booking least
      rcases List.mem_cons.mp (same.mem_iff.mpr listed) with rfl | behind
      · rfl
      · exact absurd ((List.pairwise_cons.mp sorted).1 booking behind)
          (lowest first (same.mem_iff.mp List.mem_cons_self))

theorem drain_beyond (target : Nat) (signals : Table Bus) (waiting : List Booking)
    (booking : Booking) (least : least? waiting = some booking)
    (beyond : target < booking.change.time) : drain target signals waiting = (signals, waiting) := by
  rw [drain]
  split
  · rfl
  · rename_i held found
    obtain rfl : booking = held := Option.some.inj (least.symm.trans found)
    exact if_pos beyond

theorem drain_due (target : Nat) (signals : Table Bus) (waiting : List Booking)
    (booking : Booking) (least : least? waiting = some booking)
    (due : booking.change.time ≤ target) :
    drain target signals waiting =
      drain target (signals.put booking.change.path booking.change.value)
        (waiting.erase booking) := by
  rw [drain]
  split
  · rename_i nothing
    rw [nothing] at least
    cases least
  · rename_i held found
    obtain rfl : booking = held := Option.some.inj (least.symm.trans found)
    exact if_neg (Nat.not_lt_of_le due)

/-- The loop applies what is due in the order in which it comes. What is left has not been
moved. -/
theorem drain_sorted (target : Nat) (queue waiting : List Booking) (signals : Table Bus)
    (same : queue.Perm waiting) (sorted : queue.Pairwise Booking.Before) :
    drain target signals waiting =
      (Stimulus.applyAll signals
          ((queue.filter fun booking => booking.change.time ≤ target).map Booking.change),
        waiting.filter fun booking => target < booking.change.time) := by
  -- On the queue: its first entry is what the loop takes out, and its rest is what then waits.
  induction queue generalizing waiting signals with
  | nil =>
      obtain rfl := List.nil_perm.mp same
      rw [drain]
      rfl
  | cons first rest ih =>
      have least := least_sorted waiting rest first same sorted
      obtain ⟨lowest, others⟩ := List.pairwise_cons.mp sorted
      by_cases beyond : target < first.change.time
      · have late : ∀ booking ∈ first :: rest, target < booking.change.time := by
          intro booking member
          rcases List.mem_cons.mp member with rfl | behind
          · exact beyond
          · exact Nat.lt_of_lt_of_le beyond (lowest booking behind).time_le
        have none : ((first :: rest).filter fun booking => booking.change.time ≤ target) = [] :=
          List.filter_eq_nil_iff.mpr fun booking member => by simpa using late booking member
        have all : (waiting.filter fun booking => target < booking.change.time) = waiting :=
          List.filter_eq_self.mpr fun booking member => by
            simpa using late booking (same.mem_iff.mpr member)
        rw [drain_beyond target signals waiting first least beyond, none, all]
        rfl
      · have due : first.change.time ≤ target := Nat.le_of_not_lt beyond
        have left : rest.Perm (waiting.erase first) := by
          simpa using same.erase first
        have gone : ((waiting.erase first).filter fun booking => target < booking.change.time) =
            waiting.filter fun booking => target < booking.change.time := by
          rw [← List.erase_filter]
          exact List.erase_of_not_mem (by simp [due])
        have taken : ((first :: rest).filter fun booking => booking.change.time ≤ target) =
            first :: rest.filter fun booking => booking.change.time ≤ target :=
          List.filter_cons_of_pos (by simpa using due)
        rw [drain_due target signals waiting first least due, ih _ _ left others, gone, taken]
        rfl

/-- Numbers a change and lets it wait. The numbers have 64 bits, and the one that would not leave
room for the next stops the program. -/
def schedule? (calendar : Calendar) (change : Change) : Option Calendar :=
  if wordLimit ≤ calendar.next + 1 then none
  else
    some { calendar with
      waiting := calendar.waiting ++ [⟨calendar.next, change⟩]
      next := calendar.next + 1 }

def read (calendar : Calendar) (path : String) : Except ProbeError Bus × Calendar :=
  match calendar.signals.get? path with
  | some value => (.ok value, calendar)
  | none => (.error (.unknownSignal path), calendar)

def write (calendar : Calendar) (path : String) (value : Bus) :
    Except ProbeError Unit × Calendar :=
  match calendar.signals.get? path with
  | some _ =>
      (.ok (), { calendar with
        signals := calendar.signals.put path value
        writes := calendar.writes ++ [⟨calendar.now, path, value⟩] })
  | none => (.error (.unknownSignal path), calendar)

def advance (calendar : Calendar) (units : Nat) : Except ProbeError Unit × Calendar :=
  let target := calendar.now + units
  if wordLimit ≤ target then (.error (.backend "simulated time overflow"), calendar)
  else
    let left := drain target calendar.signals calendar.waiting
    (.ok (), { calendar with now := target, signals := left.1, waiting := left.2 })

instance : Probe Calendar where
  read := read
  write := write
  advance := advance
  now := now

def perform? (calendar : Calendar) : Operation → Option Calendar
  | .declare path value => some { calendar with signals := calendar.signals.put path value }
  | .schedule change => calendar.schedule? change
  | .request request => some (Probe.serve calendar request)

def performAll? (operations : List Operation) : Option Calendar :=
  operations.foldlM perform? {}

end Calendar

end CoreBench
