import CoreBench.Proofs.Schedule
import CoreBench.Proofs.Timetable
import Mathlib.Data.List.Basic

/-!
What a run of a bench comes to, read off the schedule of the signals. Nothing here
runs: the cycles with a valid instruction, the addresses in them, the cycle of the
end and the driven interrupt lines are all functions of the schedule and of the
commands of the bench.
-/

namespace CoreBench

/-- A bench on a core whose signals follow a schedule. -/
structure Forecast where
  config : Config
  bench : Bench
  stimulus : Stimulus

namespace Forecast

variable (forecast : Forecast)

def time (cycle : Nat) : Nat :=
  forecast.stimulus.now + forecast.config.timing.settle + cycle * forecast.config.timing.cycle

def value? (path : String) (cycle : Nat) : Option Bus :=
  forecast.stimulus.scheduled? path (forecast.time cycle)

def orient (value : Bus) : Bus :=
  if forecast.config.wiring.reversed then value.reverse else value

/-- Whether a cycle issues an instruction: one of the low 64 lines of the strobe is
high, or there is no strobe. -/
def valid (cycle : Nat) : Bool :=
  match forecast.config.wiring.strobePath? with
  | none => true
  | some path => (forecast.value? path cycle).any fun value => (value.levels.take 64).contains .high

/-- The cycles up to a limit that issue an instruction. -/
def validCycles (limit : Nat) : List Nat :=
  (List.range (limit + 1)).filter forecast.valid

/-- The number of the instruction in a cycle, if the program counter is known. -/
def address? (cycle : Nat) : Option Nat :=
  ((forecast.value? forecast.config.wiring.pc cycle).bind fun value =>
    (forecast.orient value).toNat?).map fun pc => pc / max forecast.config.arch.stride 1

/-- Whether an end directive fires in a step, when the steps are in the given
cycles: the step as many steps ago as its delay stood at its address. -/
def Ends (steps : List Nat) (now : Nat) : Prop :=
  ∃ command ∈ forecast.bench.commands, command.action = .finish ∧ command.delay ≤ now ∧
    steps[now - command.delay]?.bind forecast.address? = some command.address

instance (steps : List Nat) (now : Nat) : Decidable (forecast.Ends steps now) :=
  inferInstanceAs (Decidable (∃ command ∈ _, _))

def entries (steps : List Nat) : List Enrollment :=
  Enrollment.ofSteps forecast.bench.commands (steps.map forecast.address?)

def updates (fired : List Enrollment) : List IrqUpdate :=
  fired.filterMap fun entry =>
    match entry.command.action with
    | .interrupt update => some update
    | _ => none

/-- The interrupts that fire in steps in the given cycles, with their times. -/
def interrupts (steps : List Nat) : List (Nat × IrqUpdate) :=
  steps.zipIdx.flatMap fun entry =>
    (updates (Enrollment.firing (forecast.entries steps) entry.2)).map
      (Prod.mk (forecast.time entry.1))

/-- The interrupt lines at a time, after some values were driven on them: what the
schedule has put there since the last of these, or else that one. -/
def lines? (driven : List Change) (time : Nat) : Option Bus :=
  let path := forecast.config.wiring.irq
  match driven.getLast? with
  | none => forecast.stimulus.scheduled? path time
  | some last =>
      (forecast.stimulus.changed? path fun later => last.time < later && later ≤ time).or
        (some last.value)

/-- Drives the interrupt lines once more: the lines outside of the mask stay. -/
def drive (driven : List Change) (interrupt : Nat × IrqUpdate) : List Change :=
  let current := forecast.orient ((forecast.lines? driven interrupt.1).getD ⟨[]⟩)
  let next := Bus.ofNat (interrupt.2.apply current.driven) forecast.config.arch.irqLines
  driven ++ [⟨interrupt.1, forecast.config.wiring.irq, forecast.orient next⟩]

def writes (steps : List Nat) : List Change :=
  (forecast.interrupts steps).foldl forecast.drive []

theorem time_succ (cycle : Nat) :
    forecast.time (cycle + 1) = forecast.time cycle + forecast.config.timing.cycle := by
  rw [time, time, Nat.succ_mul]
  omega

theorem entries_append (steps : List Nat) (cycle : Nat) :
    forecast.entries (steps ++ [cycle]) =
      Enrollment.ofSteps forecast.bench.commands
        (steps.map forecast.address? ++ [forecast.address? cycle]) := by
  rw [entries, List.map_append]
  rfl

/-- A later step drives nothing before its time. -/
theorem interrupts_append (steps : List Nat) (cycle : Nat) :
    forecast.interrupts (steps ++ [cycle]) =
      forecast.interrupts steps ++
        (updates (Enrollment.firing (forecast.entries (steps ++ [cycle])) steps.length)).map
          (Prod.mk (forecast.time cycle)) := by
  rw [interrupts, List.zipIdx_append, List.flatMap_append]
  congr 1
  -- The steps so far come before the new one, so it adds nothing to what fires in them.
  · apply List.flatMap_congr
    intro entry member
    have early : entry.2 < steps.length := by
      have found := List.mem_zipIdx_iff_getElem?.mp member
      exact (List.getElem?_eq_some_iff.mp found).1
    rw [entries_append, Enrollment.firing_append _ _ _ _ (by rw [List.length_map]; exact early),
      entries]
  · simp

theorem writes_append (steps : List Nat) (cycle : Nat) :
    forecast.writes (steps ++ [cycle]) =
      ((updates (Enrollment.firing (forecast.entries (steps ++ [cycle])) steps.length)).map
        (Prod.mk (forecast.time cycle))).foldl forecast.drive (forecast.writes steps) := by
  rw [writes, interrupts_append, List.foldl_append, ← writes]

theorem ends_append (steps later : List Nat) (now : Nat) (early : now < steps.length) :
    forecast.Ends (steps ++ later) now ↔ forecast.Ends steps now := by
  have same : ∀ command : Command,
      (steps ++ later)[now - command.delay]? = steps[now - command.delay]? :=
    fun command => List.getElem?_append_left (by omega)
  simp only [Ends, same]

/-- The end directives that fire in a step are among all commands that fire in it. -/
theorem ends_iff_firing (steps : List Nat) (now : Nat) :
    forecast.Ends steps now ↔
      ∃ entry ∈ Enrollment.firing (forecast.entries steps) now, entry.command.action = .finish := by
  simp only [Enrollment.firing, List.mem_filter, decide_eq_true_eq, entries,
    Enrollment.mem_of_steps]
  constructor
  · rintro ⟨command, member, finish, late, located⟩
    obtain ⟨index, found⟩ := List.mem_iff_getElem?.mp member
    obtain ⟨cycle, step, located⟩ := Option.bind_eq_some_iff.mp located
    -- The entry was enrolled as many steps ago as its delay says.
    refine ⟨⟨now - command.delay, index, command⟩, ⟨⟨?_, found⟩, ?_⟩, finish⟩
    · simp only [List.getElem?_map, step, Option.map_some, located]
    · exact Nat.sub_add_cancel late
  · rintro ⟨entry, ⟨⟨observed, found⟩, due⟩, finish⟩
    rw [Enrollment.due] at due
    rw [List.getElem?_map, Option.map_eq_some_iff] at observed
    obtain ⟨cycle, step, located⟩ := observed
    have back : now - entry.command.delay = entry.step := by omega
    refine ⟨entry.command, List.mem_of_getElem? found, finish, by omega, ?_⟩
    rw [back, step, Option.bind_some, located]

end Forecast

end CoreBench
