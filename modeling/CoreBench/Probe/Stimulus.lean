import CoreBench.Probe.Basic
import CoreBench.Table

/-!
A simulator in memory: named signals and a schedule of their changes. Advancing
applies what is due by the new time, in the order of time and, within one time,
of scheduling. Driving a signal takes effect at once and is recorded.
-/

namespace CoreBench

structure Change where
  time : Nat
  path : String
  value : Bus
  deriving DecidableEq, Repr

theorem Change.ordered_nil : ([] : List Change).Pairwise fun a b => a.time ≤ b.time :=
  .nil

/-- The changes that wait are kept in the order in which they will happen. -/
structure Stimulus where
  now : Nat := 0
  signals : Table Bus := []
  pending : List Change := []
  writes : List Change := []
  ordered : pending.Pairwise fun a b => a.time ≤ b.time := by exact Change.ordered_nil
  deriving Repr

namespace Stimulus

/-- Declares a signal or replaces its value, without a record. -/
def declare (stimulus : Stimulus) (path : String) (value : Bus) : Stimulus :=
  { stimulus with signals := stimulus.signals.put path value }

/-- Puts a change behind all changes that are not later. -/
def enqueue (change : Change) : List Change → List Change
  | [] => [change]
  | first :: rest =>
      if first.time ≤ change.time then first :: enqueue change rest else change :: first :: rest

theorem mem_enqueue (change other : Change) (queue : List Change) :
    other ∈ enqueue change queue ↔ other = change ∨ other ∈ queue := by
  induction queue with
  | nil => simp [enqueue]
  | cons first rest ih =>
      simp only [enqueue]
      split
      · simp [ih, or_left_comm]
      · simp

theorem enqueue_sorted (change : Change) (queue : List Change)
    (sorted : queue.Pairwise fun a b => a.time ≤ b.time) :
    (enqueue change queue).Pairwise fun a b => a.time ≤ b.time := by
  induction queue with
  | nil => simp [enqueue]
  | cons first rest ih =>
      obtain ⟨least, sorted⟩ := List.pairwise_cons.mp sorted
      simp only [enqueue]
      split
      · rename_i early
        refine List.pairwise_cons.mpr ⟨?_, ih sorted⟩
        intro other member
        rcases (mem_enqueue change other rest).mp member with rfl | member
        · exact early
        · exact least other member
      · rename_i late
        refine List.pairwise_cons.mpr ⟨?_, List.pairwise_cons.mpr ⟨least, sorted⟩⟩
        intro other member
        rcases List.mem_cons.mp member with rfl | member
        · omega
        · have := least other member
          omega

/-- Schedules a change. One for a time that has passed happens at the next advance. -/
def schedule (stimulus : Stimulus) (change : Change) : Stimulus :=
  { stimulus with
    pending := enqueue change stimulus.pending
    ordered := enqueue_sorted change stimulus.pending stimulus.ordered }

theorem later_ordered (stimulus : Stimulus) (units : Nat) :
    (stimulus.pending.filter fun change => stimulus.now + units < change.time).Pairwise
      fun a b => a.time ≤ b.time :=
  stimulus.ordered.filter _

def value? (stimulus : Stimulus) (path : String) : Option Bus :=
  stimulus.signals.get? path

def applyAll (signals : Table Bus) (changes : List Change) : Table Bus :=
  changes.foldl (fun signals change => signals.put change.path change.value) signals

def read (stimulus : Stimulus) (path : String) : Except ProbeError Bus × Stimulus :=
  match stimulus.value? path with
  | some value => (.ok value, stimulus)
  | none => (.error (.unknownSignal path), stimulus)

def write (stimulus : Stimulus) (path : String) (value : Bus) : Except ProbeError Unit × Stimulus :=
  match stimulus.value? path with
  | some _ =>
      (.ok (), { stimulus with
        signals := stimulus.signals.put path value
        writes := stimulus.writes ++ [⟨stimulus.now, path, value⟩] })
  | none => (.error (.unknownSignal path), stimulus)

def advance (stimulus : Stimulus) (units : Nat) : Except ProbeError Unit × Stimulus :=
  let target := stimulus.now + units
  if wordLimit ≤ target then (.error (.backend "simulated time overflow"), stimulus)
  else
    (.ok (), { stimulus with
      now := target
      signals := applyAll stimulus.signals (stimulus.pending.filter fun change => change.time ≤ target)
      pending := stimulus.pending.filter fun change => target < change.time
      ordered := stimulus.later_ordered units })

instance : Probe Stimulus where
  read := read
  write := write
  advance := advance
  now := now

end Stimulus

end CoreBench
