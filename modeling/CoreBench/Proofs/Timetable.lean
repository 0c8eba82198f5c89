import CoreBench.Probe.Stimulus
import CoreBench.Run.Session
import Mathlib.Data.List.Basic
import Mathlib.Data.List.Induction
import Mathlib.Logic.Function.Iterate
import Mathlib.Tactic.IntervalCases

/-!
What fires when. A step enrols the commands at the present address, and a command
with the delay `n` fires in the `n`-th step after that one. So the queue of a
session is a function of the addresses at its steps: it holds what they enrolled
and what is not yet due, and nothing else.
-/

namespace CoreBench

/-- A command that a step has enrolled, with its index in the bench. -/
structure Enrollment where
  step : Nat
  index : Nat
  command : Command
  deriving DecidableEq, Repr

namespace Enrollment

def due (entry : Enrollment) : Nat :=
  entry.step + entry.command.delay

def ofStep (commands : List Command) (step : Nat) (address : Option Nat) : List Enrollment :=
  (commands.zipIdx.filter fun entry => address = some entry.1.address).map fun entry =>
    ⟨step, entry.2, entry.1⟩

/-- What steps enrol, from step 0 on, by the addresses that they observe. -/
def ofSteps (commands : List Command) (addresses : List (Option Nat)) : List Enrollment :=
  addresses.zipIdx.flatMap fun entry => ofStep commands entry.2 entry.1

def firing (entries : List Enrollment) (now : Nat) : List Enrollment :=
  entries.filter fun entry => entry.due = now

/-- The queue in front of the step `now`. -/
def queue (entries : List Enrollment) (now : Nat) : List Pending :=
  (entries.filter fun entry => now ≤ entry.due).map fun entry => ⟨entry.index, entry.due - now⟩

theorem of_steps_append (commands : List Command) (addresses : List (Option Nat))
    (address : Option Nat) :
    ofSteps commands (addresses ++ [address]) =
      ofSteps commands addresses ++ ofStep commands addresses.length address := by
  simp [ofSteps, List.zipIdx_append]

theorem mem_of_step {commands : List Command} {step : Nat} {address : Option Nat}
    {entry : Enrollment} :
    entry ∈ ofStep commands step address ↔
      entry.step = step ∧ commands[entry.index]? = some entry.command ∧
        address = some entry.command.address := by
  simp only [ofStep, List.mem_map, List.mem_filter, decide_eq_true_eq]
  constructor
  · rintro ⟨⟨command, index⟩, ⟨position, located⟩, rfl⟩
    exact ⟨rfl, List.mem_zipIdx_iff_getElem?.mp position, located⟩
  · rintro ⟨rfl, found, located⟩
    exact ⟨(entry.command, entry.index), ⟨List.mem_zipIdx_iff_getElem?.mpr found, located⟩, rfl⟩

/-- Steps enrol exactly the commands of the bench at their addresses, so no index
leads nowhere. -/
theorem mem_of_steps {commands : List Command} {addresses : List (Option Nat)}
    {entry : Enrollment} :
    entry ∈ ofSteps commands addresses ↔
      addresses[entry.step]? = some (some entry.command.address) ∧
        commands[entry.index]? = some entry.command := by
  simp only [ofSteps, List.mem_flatMap, mem_of_step]
  constructor
  · rintro ⟨⟨address, step⟩, position, rfl, found, rfl⟩
    exact ⟨List.mem_zipIdx_iff_getElem?.mp position, found⟩
  · rintro ⟨observed, found⟩
    exact ⟨(some entry.command.address, entry.step), List.mem_zipIdx_iff_getElem?.mpr observed,
      rfl, found, rfl⟩

/-- What later steps enrol does not fire before them. -/
theorem firing_append (commands : List Command) (addresses later : List (Option Nat)) (now : Nat)
    (early : now < addresses.length) :
    firing (ofSteps commands (addresses ++ later)) now =
      firing (ofSteps commands addresses) now := by
  induction later using List.reverseRecOn with
  | nil => rw [List.append_nil]
  | append_singleton rest address ih =>
      -- The step comes after `now`, and what it enrols is due no earlier than itself.
      have none : firing (ofStep commands (addresses ++ rest).length address) now = [] := by
        apply List.filter_eq_nil_iff.mpr
        intro entry member
        have enrolled := (mem_of_step.mp member).1
        rw [List.length_append] at enrolled
        rw [decide_eq_true_eq, due]
        omega
      rw [← List.append_assoc, of_steps_append]
      unfold firing at none ih ⊢
      rw [List.filter_append, none, List.append_nil, ih]

theorem queue_append (left right : List Enrollment) (now : Nat) :
    queue (left ++ right) now = queue left now ++ queue right now := by
  simp [queue]

theorem queue_of_step (commands : List Command) (now address : Nat) :
    queue (ofStep commands now (some address)) now = Pending.matching commands address := by
  have all : ∀ entry ∈ ofStep commands now (some address), decide (now ≤ entry.due) = true := by
    intro entry member
    have enrolled := (mem_of_step.mp member).1
    rw [decide_eq_true_eq, due]
    omega
  rw [queue, List.filter_eq_self.mpr all]
  simp only [ofStep, Pending.matching, due, List.map_map, Option.some.injEq, eq_comm]
  apply List.map_congr_left
  intro entry _
  simp

theorem count_down_queue (entries : List Enrollment) (now : Nat) :
    Pending.countDown (queue entries now) = queue entries (now + 1) := by
  have later : ∀ entry ∈ entries,
      (decide (entry.due - now ≠ 0) && decide (now ≤ entry.due)) = decide (now + 1 ≤ entry.due) := by
    intro entry _
    rw [← Bool.decide_and, decide_eq_decide]
    omega
  simp only [Pending.countDown, queue, List.filter_map, List.map_map, List.filter_filter,
    Function.comp_def]
  rw [List.filter_congr later]
  apply List.map_congr_left
  intro entry _
  simp only [Pending.mk.injEq, true_and]
  omega

theorem due_queue (entries : List Enrollment) (now : Nat) :
    Pending.due (queue entries now) = (firing entries now).map Enrollment.index := by
  have present : ∀ entry ∈ entries,
      (decide (entry.due - now = 0) && decide (now ≤ entry.due)) = decide (entry.due = now) := by
    intro entry _
    rw [← Bool.decide_and, decide_eq_decide]
    omega
  simp only [Pending.due, queue, firing, List.filter_map, List.map_map, List.filter_filter,
    Function.comp_def]
  rw [List.filter_congr present]

end Enrollment

namespace Session

variable {P : Type} [Probe P]

/-- The number of the instruction at the program counter, if that is known. -/
def address? (session : Session P) : Option Nat :=
  match session.processor.state with
  | (.error _, _) => none
  | (.ok snapshot, _) => snapshot.address? session.processor.config.arch.stride

/-- Firing the commands one after another on one snapshot succeeds and leads from
the first session to the last. -/
inductive Fires (snapshot : Snapshot) : Session P → List Command → Session P → Prop where
  | done (session : Session P) : Fires snapshot session [] session
  | next {before between after : Session P} {command : Command} {rest : List Command}
      (first : before.fire snapshot command = (.ok (), between))
      (others : Fires snapshot between rest after) :
      Fires snapshot before (command :: rest) after

theorem fire_bench (session : Session P) (snapshot : Snapshot) (command : Command) :
    (session.fire snapshot command).2.bench = session.bench := by
  unfold fire
  split <;> rfl

theorem fire_queue (session : Session P) (snapshot : Snapshot) (command : Command) :
    (session.fire snapshot command).2.queue = session.queue := by
  unfold fire
  split <;> rfl

theorem Fires.queue {snapshot : Snapshot} {before after : Session P} {commands : List Command}
    (fires : Fires snapshot before commands after) : after.queue = before.queue := by
  induction fires with
  | done => rfl
  | @next before between after command rest first others ih =>
      have kept := fire_queue before snapshot command
      rw [first] at kept
      exact ih.trans kept

theorem Fires.bench {snapshot : Snapshot} {before after : Session P} {commands : List Command}
    (fires : Fires snapshot before commands after) : after.bench = before.bench := by
  induction fires with
  | done => rfl
  | @next before between after command rest first others ih =>
      have kept := fire_bench before snapshot command
      rw [first] at kept
      exact ih.trans kept

/-- Firing by index fires the commands of the bench at these indices. -/
theorem fire_all_iff (snapshot : Snapshot) (indices : List Nat) (before after : Session P) :
    fireAll snapshot before indices = (.ok (), after) ↔
      Fires snapshot before (indices.filterMap fun index => before.bench.commands[index]?)
        after := by
  -- On the indices; firing keeps the bench, so the later ones still name their commands.
  induction indices generalizing before with
  | nil =>
      constructor
      · rintro ⟨⟩
        exact .done _
      · rintro ⟨⟩
        rfl
  | cons index rest ih =>
      rw [fireAll, List.filterMap_cons]
      cases before.bench.commands[index]? with
      | none => exact ih before
      | some command =>
          have kept := fire_bench before snapshot command
          dsimp only
          constructor
          · intro succeeded
            cases fired : before.fire snapshot command with
            | mk result between =>
                rw [fired] at succeeded kept
                cases result with
                | error error => cases succeeded
                | ok => exact .next fired (kept ▸ (ih between).mp succeeded)
          · rintro (_ | @⟨_, between, _, _, _, first, others⟩)
            rw [first] at kept
            rw [← kept] at others
            simp only [first]
            exact (ih between).mpr others

/-- Indices that name commands of the bench are all fired, none is passed over. -/
theorem fire_all_ok_iff (snapshot : Snapshot) (entries : List Enrollment) (before after : Session P)
    (named : ∀ entry ∈ entries, before.bench.commands[entry.index]? = some entry.command) :
    fireAll snapshot before (entries.map Enrollment.index) = (.ok (), after) ↔
      Fires snapshot before (entries.map Enrollment.command) after := by
  have found : (entries.map Enrollment.index).filterMap
      (fun index => before.bench.commands[index]?) = entries.map Enrollment.command := by
    rw [List.filterMap_map]
    exact List.filterMap_eq_map_iff_forall_eq_some.mpr named
  rw [fire_all_iff, found]

theorem step_of_state {session : Session P} {snapshot : Snapshot} {processor : Processor P}
    (sampled : session.processor.state = (.ok snapshot, processor)) :
    session.step = fireAll snapshot
      { session with processor, queue := Pending.countDown (session.enroll snapshot) }
      (Pending.due (session.enroll snapshot)) := by
  rw [step, sampled]

theorem state_of_step {session after : Session P} (succeeded : session.step = (.ok (), after)) :
    ∃ snapshot processor, session.processor.state = (.ok snapshot, processor) := by
  cases sampled : session.processor.state with
  | mk result processor =>
      cases result with
      | error error =>
          rw [step, sampled] at succeeded
          cases succeeded
      | ok snapshot => exact ⟨snapshot, processor, rfl⟩

theorem address_of_state {session : Session P} {snapshot : Snapshot} {processor : Processor P}
    (sampled : session.processor.state = (.ok snapshot, processor)) :
    session.address? =
      snapshot.pc.map fun pc => pc / max session.processor.config.arch.stride 1 := by
  rw [address?, sampled]
  rfl

/-- Enrolling what the present address calls for keeps the queue a function of the
addresses. -/
theorem enroll_queue (session : Session P) (addresses : List (Option Nat)) (snapshot : Snapshot)
    (processor : Processor P) (sampled : session.processor.state = (.ok snapshot, processor))
    (waiting : session.queue =
      Enrollment.queue (Enrollment.ofSteps session.bench.commands addresses) addresses.length) :
    session.enroll snapshot =
      Enrollment.queue
        (Enrollment.ofSteps session.bench.commands (addresses ++ [session.address?]))
        addresses.length := by
  have address : session.address? = snapshot.address? session.processor.config.arch.stride :=
    address_of_state sampled
  rw [Enrollment.of_steps_append, Enrollment.queue_append, ← waiting, address, enroll]
  cases snapshot.address? session.processor.config.arch.stride with
  | none => simp [Enrollment.ofStep, Enrollment.queue]
  | some number => rw [Enrollment.queue_of_step]

/-- One step of the timetable: what is due fires on the present snapshot, and the
rest waits for the next step. -/
theorem step_ok_iff (session after : Session P) (addresses : List (Option Nat))
    (snapshot : Snapshot) (processor : Processor P)
    (sampled : session.processor.state = (.ok snapshot, processor))
    (waiting : session.queue =
      Enrollment.queue (Enrollment.ofSteps session.bench.commands addresses) addresses.length) :
    let entries := Enrollment.ofSteps session.bench.commands (addresses ++ [session.address?])
    session.step = (.ok (), after) ↔
      Fires snapshot
        { session with processor, queue := Enrollment.queue entries (addresses.length + 1) }
        ((Enrollment.firing entries addresses.length).map Enrollment.command) after := by
  intro entries
  rw [step_of_state sampled, enroll_queue session addresses snapshot processor sampled waiting,
    Enrollment.due_queue, Enrollment.count_down_queue]
  apply fire_all_ok_iff
  intro entry member
  exact (Enrollment.mem_of_steps.mp (List.mem_filter.mp member).1).2

theorem step_queue (session after : Session P) (addresses : List (Option Nat))
    (waiting : session.queue =
      Enrollment.queue (Enrollment.ofSteps session.bench.commands addresses) addresses.length)
    (succeeded : session.step = (.ok (), after)) :
    after.queue = Enrollment.queue
      (Enrollment.ofSteps session.bench.commands (addresses ++ [session.address?]))
      (addresses.length + 1) := by
  obtain ⟨snapshot, processor, sampled⟩ := state_of_step succeeded
  exact ((step_ok_iff session after addresses snapshot processor sampled waiting).mp succeeded).queue

/-- Over any number of steps the queue stays a function of the addresses. -/
theorem run_queue (bench : Bench) (before after : Nat → Session P) (now : Nat)
    (benches : ∀ step ≤ now, (before step).bench = bench)
    (empty : (before 0).queue = [])
    (carried : ∀ step < now, (before (step + 1)).queue = (after step).queue)
    (succeeded : ∀ step < now, (before step).step = (.ok (), after step)) :
    (before now).queue = Enrollment.queue
      (Enrollment.ofSteps bench.commands ((List.range now).map fun step => (before step).address?))
      now := by
  induction now with
  | zero => simpa [Enrollment.ofSteps, Enrollment.queue] using empty
  | succ now ih =>
      have waiting := ih (fun step early => benches step (by omega))
        (fun step early => carried step (by omega)) (fun step early => succeeded step (by omega))
      -- The queue of this step is what the last one left, whatever the core did in between.
      have bench' := benches now (by omega)
      have next := step_queue (before now) (after now)
        ((List.range now).map fun step => (before step).address?)
        (by rw [bench', List.length_map, List.length_range]; exact waiting)
        (succeeded now (by omega))
      rw [carried now (by omega), next, bench', List.range_succ]
      simp

/-- A command fires in a step exactly once for each earlier step, or this one, that
stood at its address as many steps ago as its delay says. What waits after the step
are the commands that earlier steps stood at and whose delay is not over. A step
stands at the program counter that it samples divided by the stride. Between two
steps the core may change in any way. -/
theorem steps_follow_timetable (bench : Bench) (before after : Nat → Session P) (now : Nat)
    (benches : ∀ step ≤ now, (before step).bench = bench)
    (empty : (before 0).queue = [])
    (carried : ∀ step < now, (before (step + 1)).queue = (after step).queue)
    (succeeded : ∀ step ≤ now, (before step).step = (.ok (), after step)) :
    let entries := Enrollment.ofSteps bench.commands
      ((List.range (now + 1)).map fun step => (before step).address?)
    (∀ step ≤ now, ∃ snapshot processor,
      (before step).processor.state = (.ok snapshot, processor) ∧
        (before step).address? =
          snapshot.pc.map fun pc => pc / max (before step).processor.config.arch.stride 1) ∧
    (∃ snapshot processor, (before now).processor.state = (.ok snapshot, processor) ∧
      Fires snapshot { before now with processor, queue := (after now).queue }
        ((entries.filter fun entry => entry.step + entry.command.delay = now).map
          Enrollment.command) (after now)) ∧
      (after now).queue =
        (entries.filter fun entry => now < entry.step + entry.command.delay).map fun entry =>
          ⟨entry.index, entry.step + entry.command.delay - now - 1⟩ := by
  intro entries
  have waiting := run_queue bench before after now benches empty carried
    (fun step early => succeeded step (by omega))
  obtain rfl : bench = (before now).bench := (benches now (Nat.le_refl now)).symm
  -- `step_ok_iff` puts the address of the last step behind those before it.
  have history : (List.range now).map (fun step => (before step).address?) ++
      [(before now).address?] =
        (List.range (now + 1)).map fun step => (before step).address? := by
    rw [List.range_succ, List.map_append]
    rfl
  have waiting' : (before now).queue = Enrollment.queue
      (Enrollment.ofSteps (before now).bench.commands
        ((List.range now).map fun step => (before step).address?))
      ((List.range now).map fun step => (before step).address?).length := by
    rw [List.length_map, List.length_range]
    exact waiting
  have success := succeeded now (Nat.le_refl now)
  obtain ⟨snapshot, processor, sampled⟩ := state_of_step success
  have queue := step_queue _ _ _ waiting' success
  have fires := (step_ok_iff _ _ _ snapshot processor sampled waiting').mp success
  rw [history, List.length_map, List.length_range] at queue fires
  refine ⟨?_, ⟨snapshot, processor, sampled, ?_⟩, queue⟩
  · intro step early
    obtain ⟨observed, core, seen⟩ := state_of_step (succeeded step early)
    exact ⟨observed, core, seen, address_of_state seen⟩
  · rw [queue]
    exact fires

/-- A core that stays at its third instruction, with an interrupt one step and the
end two steps after it. -/
def stalled : Session Stimulus where
  bench := { commands := [⟨.interrupt ⟨1, 1⟩, 2, 1, "1->1", 2⟩, ⟨.finish, 2, 2, "", 3⟩] }
  processor :=
    { probe := { signals := [("pc", Bus.ofNat 9 8), ("irq", Bus.ofNat 0 4)] }
      config :=
        { arch := { generalCount := 0, specialCount := 0 }
          wiring := { pc := "pc", strobe := none, reversed := false } } }

def stalledAt (step : Nat) : Session Stimulus :=
  (fun session : Session Stimulus => session.step.2)^[step] stalled

/-- At the program counter 9, in the third instruction of four bytes, each step enrols
both commands again. In the third step the end of the first one and the interrupt of
the second one fire, in this order. -/
theorem stalled_follows_timetable :
    (∀ step ≤ 2, (stalledAt step).bench = stalled.bench) ∧ (stalledAt 0).queue = [] ∧
      (∀ step ≤ 2, (stalledAt step).step = (.ok (), stalledAt (step + 1))) ∧
      (∀ step ≤ 2, (stalledAt step).address? = some 2) ∧
      (∃ snapshot processor, (stalledAt 2).processor.state = (.ok snapshot, processor) ∧
        snapshot.pc = some 9 ∧
        Fires snapshot { stalledAt 2 with processor, queue := (stalledAt 3).queue }
          [⟨.finish, 2, 2, "", 3⟩, ⟨.interrupt ⟨1, 1⟩, 2, 1, "1->1", 2⟩] (stalledAt 3)) ∧
      (stalledAt 3).queue = [⟨1, 0⟩, ⟨0, 0⟩, ⟨1, 1⟩] := by
  have benches : ∀ step ≤ 2, (stalledAt step).bench = stalled.bench := by
    intro step early
    interval_cases step <;> rfl
  have succeeded : ∀ step ≤ 2, (stalledAt step).step = (.ok (), stalledAt (step + 1)) := by
    intro step early
    interval_cases step <;> rfl
  obtain ⟨addresses, ⟨snapshot, processor, sampled, fires⟩, queue⟩ :=
    steps_follow_timetable stalled.bench stalledAt (fun step => stalledAt (step + 1))
      2 benches rfl (fun _ _ => rfl) succeeded
  have counter : snapshot.pc = some 9 := by
    cases sampled
    rfl
  refine ⟨benches, rfl, succeeded, ?_, ⟨snapshot, processor, sampled, counter, fires⟩,
    queue.trans (by rfl)⟩
  intro step early
  obtain ⟨observed, core, seen, address⟩ := addresses step early
  rw [address]
  interval_cases step <;> cases seen <;> rfl

end Session

end CoreBench
